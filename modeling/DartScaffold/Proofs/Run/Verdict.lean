import DartScaffold.Proofs.Disk.Receptive
import DartScaffold.Proofs.Run.Page
import DartScaffold.Proofs.Run.Progress

/-!
The verdicts on the units of a page. What an API fails with can be told beforehand, from its own entry, its
own samples and the name of the project; where the files of the page can be written, nothing else goes
wrong, whatever the other entries and samples are. So the results are the verdicts in the order of the
configuration, as long as all faults are of the kinds that fail one unit. A value that cannot be looked up,
a number that is too long, a sample that is nested too deeply and the home of a user whom nobody knows are
not: the first of them gives the feature up.
-/

namespace DartScaffold

open Aggregate (FileKind Fragment)
open ClassName (Scope)
open Disk (Frame Location Receptive SameText WriteMode)

namespace Run

/-! ### Actions that go through -/

/-- What the result of something is a failure with. -/
def failureOf {α : Type} : Except Failure α → Option Failure
  | .ok _ => none
  | .error failure => some failure

namespace Action

variable {mode : WriteMode} {places : List Location} {b : Bench} {a : Action} {as : List Action}

/-- What the action fails with by itself. -/
def failure? : Action → Option Failure
  | fail failure => some failure
  | _ => none

/-- Nothing is written with lone surrogates. -/
def Encodes : Action → Prop
  | save _ content => ∃ text, content = .same text
  | patch _ fragment => ∃ f, fragment = .same f
  | _ => True

def outcomeOf (failure : Option Failure) : Except Failure Unit :=
  failure.elim (.ok ()) .error

theorem findSome?_check {α : Type} (result : Except Failure α) :
    (check result).findSome? failure? = failureOf result := by
  cases result <;> rfl

theorem perform_of_receptive (h : b.disk.Receptive mode places) (hwithin : a.Within places)
    (hencodes : a.Encodes) :
    (a.perform mode b).1 = outcomeOf a.failure? ∧ (a.perform mode b).2.disk.Receptive mode places := by
  have hsave : ∀ l ∈ places, ∀ text, (ended b (b.disk.save mode l text)).1 = .ok () ∧
      (ended b (b.disk.save mode l text)).2.disk.Receptive mode places := by
    intro l hl text
    obtain ⟨saved, hsaved, hreceptive⟩ := h.save hl text
    refine ⟨?_, hreceptive⟩
    rw [ended, hsaved]
    rfl
  cases a with
  | save place content =>
      obtain ⟨text, rfl⟩ := hencodes
      exact hsave place (hwithin place rfl) text
  | patch place fragment =>
      obtain ⟨f, rfl⟩ := hencodes
      have hplace := hwithin place rfl
      obtain ⟨existing, hexisting⟩ := h.textIfFile_eq_ok hplace
      have hpatch : (Aggregate.patch b.disk mode place (.same f)).2 =
          b.disk.save mode place (Aggregate.mergeText existing f).1 := by
        rw [Aggregate.patch, hexisting]
        rfl
      rw [perform, hpatch]
      exact hsave place hplace _
  | _ => exact ⟨rfl, h⟩

theorem performAll_of_receptive (h : b.disk.Receptive mode places)
    (has : ∀ a ∈ as, a.Within places ∧ a.Encodes) :
    (performAll mode b as).1 = outcomeOf (as.findSome? failure?) ∧
      (performAll mode b as).2.disk.Receptive mode places := by
  induction as generalizing b with
  | nil => exact ⟨rfl, h⟩
  | cons a as ih =>
      obtain ⟨⟨hwithin, hencodes⟩, hrest⟩ := List.forall_mem_cons.mp has
      obtain ⟨houtcome, hreceptive⟩ := perform_of_receptive h hwithin hencodes
      rw [performAll, List.findSome?_cons]
      cases hstep : a.perform mode b with
      | mk outcome b₁ =>
          rw [hstep] at houtcome hreceptive
          dsimp only at houtcome hreceptive
          subst houtcome
          cases hfailure : a.failure? with
          | none => exact ih hreceptive hrest
          | some failure => exact ⟨rfl, hreceptive⟩

end Action

/-! ### Drafts that go through -/

namespace Draft

variable (u : Draft) (scope : Scope) (project : Except Failure String)

/-- The shared files that the API contributes to. -/
def sharedKinds : List FileKind :=
  (if u.api.returnsModel then [.mapper] else []) ++
    if u.site.wantsLayers u.plan then [.remoteDataSource, .repositoryImpl, .domainRepository] else []

/-- Where the unit writes. -/
def targets : List Location :=
  ApiUnit.ownPlaces u.plan u.site u.api ++ u.sharedKinds.map u.site.aggregate

theorem kind_mem_sharedKinds : ∀ f ∈ u.fragments scope project, f.first.kind ∈ u.sharedKinds := by
  intro f hf
  rw [fragments] at hf
  rw [sharedKinds]
  rcases List.mem_append.mp hf with hmapper | hlayer
  · obtain ⟨hmodel, hfirst⟩ := u.mem_mapperFragments scope hmapper
    rw [hfirst, (u.mapper_block scope).1, if_pos hmodel]
    exact List.mem_append_left _ List.mem_cons_self
  · split at hlayer
    · rename_i hlayers
      cases hfs : u.layerFragments project with
      | error failure =>
          rw [hfs] at hlayer
          contradiction
      | ok fs =>
          rw [hfs] at hlayer
          rw [if_pos hlayers, ← (u.contributes_layers hfs).2]
          exact List.mem_append_right _ (List.mem_map_of_mem (f := fun f => f.first.kind) hlayer)
    · contradiction

theorem within_targets : ∀ a ∈ u.actions scope project, a.Within u.targets := by
  intro a ha l hl
  rcases place_actions ha hl with hown | ⟨f, hf, -, rfl⟩
  · exact List.mem_append_left _ hown
  · exact List.mem_append_right _ (List.mem_map_of_mem (u.kind_mem_sharedKinds scope project f hf))

section Encodes

variable {u} {samples : Samples} (h : u.samples = .same samples)

include h

theorem encodes_models : ∀ a ∈ u.models scope, a.Encodes := by
  obtain ⟨plan, site, api, found⟩ := u
  obtain rfl : found = .same samples := h
  have hnone : ∀ a ∈ ([] : List Action), a.Encodes := List.forall_mem_nil _
  have hwanted : ∀ (wanted : Bool) (place : Location) (text : String),
      ∀ a ∈ (if wanted then [Action.save place (.same text)] else []), a.Encodes := by
    intro wanted place text
    split
    · exact List.forall_mem_singleton.mpr ⟨text, rfl⟩
    · exact hnone
  have hcheck : ∀ {α : Type} (result : Except Failure α), ∀ a ∈ Action.check result, a.Encodes :=
    fun _ => Action.forall_mem_check fun _ _ => trivial
  rw [models, bodyActions]
  refine List.forall_mem_append.mpr ⟨List.forall_mem_append.mpr
    ⟨hcheck _, List.forall_mem_cons.mpr ⟨⟨_, rfl⟩, hwanted _ _ _⟩⟩, ?_⟩
  split
  · rw [responseActions, extraActions]
    refine List.forall_mem_append.mpr ⟨List.forall_mem_append.mpr ⟨List.forall_mem_append.mpr
      ⟨hcheck _, ?_⟩, hwanted _ _ _⟩, List.forall_mem_append.mpr ⟨hcheck _, ?_⟩⟩
    · exact List.forall_mem_cons.mpr ⟨⟨_, rfl⟩, List.forall_mem_cons.mpr ⟨⟨_, rfl⟩,
        List.forall_mem_singleton.mpr trivial⟩⟩
    · exact List.forall_mem_map.mpr fun _ _ => ⟨_, rfl⟩
  · exact hnone

theorem encodes_layerActions : ∀ a ∈ u.layerActions project, a.Encodes := by
  obtain ⟨plan, site, api, found⟩ := u
  obtain rfl : found = .same samples := h
  cases project with
  | error failure => exact List.forall_mem_singleton.mpr trivial
  | ok name =>
      refine List.forall_mem_cons.mpr ⟨trivial, ?_⟩
      split
      · exact List.forall_mem_singleton.mpr trivial
      · exact List.forall_mem_singleton.mpr ⟨_, rfl⟩

theorem same_layerFragments {fs : List (Twin Fragment)} (hfs : u.layerFragments project = .ok fs) :
    ∃ items : List Fragment, fs = items.map .same := by
  obtain ⟨plan, site, api, found⟩ := u
  obtain rfl : found = .same samples := h
  obtain ⟨name, -, rfl, -⟩ := layerFragments_ok _ hfs
  rw [layerFragments, Except.bind, context, Twin.map, Twin.traverse] at hfs
  generalize Layer.Context.fragments _ = result at hfs
  cases result with
  | error failure => contradiction
  | ok items => exact ⟨items, (Except.ok.inj hfs).symm⟩

theorem same_fragments : ∀ f ∈ u.fragments scope project, ∃ g, f = .same g := by
  intro f hf
  rcases u.mem_fragments scope project hf with hmapper | ⟨fs, hfs, hlayer⟩
  · obtain ⟨plan, site, api, found⟩ := u
    obtain rfl : found = .same samples := h
    rw [mapperFragments] at hmapper
    split at hmapper
    · rw [List.mem_singleton.mp hmapper]
      exact ⟨_, rfl⟩
    · contradiction
  · obtain ⟨items, rfl⟩ := same_layerFragments project h hfs
    obtain ⟨g, -, rfl⟩ := List.mem_map.mp hlayer
    exact ⟨g, rfl⟩

/-- Where no sample has lone surrogates, nothing that is made of them has. -/
theorem encodes_actions : ∀ a ∈ u.actions scope project, a.Encodes := by
  rw [actions]
  refine List.forall_mem_append.mpr ⟨List.forall_mem_append.mpr ⟨encodes_models scope h, ?_⟩, ?_⟩
  · split
    · exact encodes_layerActions project h
    · exact List.forall_mem_nil _
  · exact List.forall_mem_map.mpr (same_fragments scope project h)

end Encodes

/-- What the models fail with when all can be written: a sample is nested too deeply, or the place of the
extra model is not known. -/
def modelFault : Option Failure :=
  (failureOf u.bodyFound).or <|
    if u.api.returnsModel then
      (failureOf u.responseFound).or (failureOf (u.plan.place? u.api.dirExtra))
    else none

/-- What the layers fail with: they need parameters that the body lacks, or a name for the project. -/
def layerFault : Option Failure :=
  if u.site.wantsLayers u.plan then failureOf (u.layerFragments project) else none

def fault : Option Failure :=
  u.modelFault.or (u.layerFault project)

theorem findSome?_models : (u.models scope).findSome? Action.failure? = u.modelFault := by
  have htest : ∀ (place : Location) (content : Twin String),
      (if u.site.wantsTests u.plan then [Action.save place content] else []).findSome?
        Action.failure? = none := by
    intro place content
    split <;> rfl
  have hextra : ((u.plan.placesOf u.api.dirExtra).map fun directory =>
      saveModel directory (u.extraModel scope)).findSome? Action.failure? = none := by
    exact List.findSome?_eq_none_iff.mpr (List.forall_mem_map.mpr fun _ _ => rfl)
  have hbody : u.bodyActions.findSome? Action.failure? = failureOf u.bodyFound := by
    rw [bodyActions, List.findSome?_append, Action.findSome?_check]
    exact (congrArg _ (htest _ _)).trans Option.or_none
  have hresponse : (u.responseActions scope).findSome? Action.failure? =
      (failureOf u.responseFound).or (failureOf (u.plan.place? u.api.dirExtra)) := by
    have hsaves : [saveModel u.site.directory (Prod.fst <$> u.responseModel),
        saveModel u.site.directory (Prod.fst <$> u.entityModel),
        .claim (u.mapper scope).first.2.2].findSome? Action.failure? = none := rfl
    simp only [responseActions, extraActions, List.findSome?_append, Action.findSome?_check, hsaves,
      htest, hextra, Option.or_none]
  rw [models, List.findSome?_append, hbody, modelFault]
  split
  · rw [hresponse]
  · rfl

theorem findSome?_actions : (u.actions scope project).findSome? Action.failure? = u.fault project := by
  have hpatches : ∀ fs, (u.patches fs).findSome? Action.failure? = none := by
    intro fs
    refine List.findSome?_eq_none_iff.mpr fun a ha => ?_
    obtain ⟨f, -, rfl⟩ := List.mem_map.mp ha
    rfl
  rw [actions, List.findSome?_append, List.findSome?_append, findSome?_models, hpatches,
    Option.or_none, fault, layerFault]
  congr 1
  split
  · cases project with
    | error failure => rfl
    | ok name =>
        rw [layerActions]
        cases u.layerFragments (.ok name) <;> rfl
  · rfl

end Draft

/-! ### Verdicts -/

/-- What a result says of its unit: which one it is, and why it failed, if it did. -/
structure Verdict where
  feature : String
  page : String
  api : Option String
  failure : Option Failure
  deriving DecidableEq, Repr

def UnitResult.verdict (r : UnitResult) : Verdict :=
  ⟨r.feature, r.page, r.api, r.failure⟩

/-- The failure that is not the unit's alone, and gives up its page and its feature. -/
def Verdict.fatal? (v : Verdict) : Option Failure :=
  v.failure.filter fun failure => !failure.isLocal

/-- There is one result for each verdict, in their order, unless one of the verdicts gives all of them
up. -/
def Follows (outcome : Except Failure (List UnitResult)) (verdicts : List Verdict) : Prop :=
  match verdicts.findSome? Verdict.fatal? with
  | some failure => outcome = .error failure
  | none => ∃ results, outcome = .ok results ∧ results.map UnitResult.verdict = verdicts

theorem Follows.andThen {first : Except Failure (List UnitResult) × Project}
    {next : Project → Except Failure (List UnitResult) × Project} {verdicts more : List Verdict}
    (h : Follows first.1 verdicts) (h' : Follows (next first.2).1 more) :
    Follows (andThen first next).1 (verdicts ++ more) := by
  obtain ⟨outcome, project⟩ := first
  dsimp only at h h'
  rw [Follows] at h h' ⊢
  rw [List.findSome?_append]
  cases hfatal : verdicts.findSome? Verdict.fatal? with
  | some failure =>
      rw [hfatal] at h
      obtain rfl : outcome = .error failure := h
      rfl
  | none =>
      rw [hfatal] at h
      obtain ⟨results, rfl, rfl⟩ := h
      rw [Option.none_or, Run.andThen, ahead]
      cases hfatal' : more.findSome? Verdict.fatal? with
      | some failure =>
          rw [hfatal'] at h'
          dsimp only at h' ⊢
          rw [h']
          rfl
      | none =>
          rw [hfatal'] at h'
          obtain ⟨others, hothers, rfl⟩ := h'
          dsimp only
          rw [hothers]
          exact ⟨results ++ others, rfl, List.map_append⟩

namespace ApiUnit

variable (d : Disk) (plan : Plan) (site : Site) (known name : String) (raw : Json)

/-- What an API fails with, by its own entry and samples and the name of the project. -/
def fault : Option Failure :=
  match draftOn d plan site name raw with
  | .error failure => some failure
  | .ok u => u.fault (nameOn d plan known)

def verdict : Verdict :=
  { feature := site.feature.name, page := site.page.name, api := some name
    failure := fault d plan site known name raw }

theorem findSome?_script (scope : Scope) :
    (script (draftOn d plan site name raw) scope (nameOn d plan known)).findSome? Action.failure? =
      fault d plan site known name raw := by
  rw [fault]
  cases hdraft : draftOn d plan site name raw with
  | error failure => rfl
  | ok u => exact u.findSome?_actions scope _

variable {d plan site known name raw}

end ApiUnit

/-! ### Pages that go through -/

/-- The value is not nested deeply. -/
def Shallow (value : Json) : Prop :=
  Shape.callsFor value ≤ 300

/-- The samples are shallow, or nested too deeply to find their shape. Between the two other functions give
out, for which no calls are counted. -/
structure Moderate (s : Samples) : Prop where
  body : Shallow (.obj s.body) ∨ Shape.callLimit < Shape.callsFor (.obj s.body)
  response : Shallow (.obj s.response) ∨ Shape.callLimit < Shape.callsFor (.obj s.response)
  headers : ∀ entries ∈ s.headers, Shallow (.obj entries)

/-- The page can be generated where `places` can be written: its directory is there, its files have stems
of their own, and no files of former APIs are to be removed. It writes to the places only, no text with lone
surrogates, and what it reads is not among them. Its entries are shallow, and its samples moderate. -/
structure Site.Ready (plan : Plan) (site : Site) (places : List Location) (d : Disk) : Prop where
  directory : d.isDirectory site.directory = .ok true
  stems : (site.page.apiNames.map Text.snakeCase).Nodup
  keeps : site.wantsPruning plan = false
  targets : ∀ entry ∈ site.page.apis, ∀ u,
    ApiUnit.draftOn d plan site entry.1 entry.2 = .ok u → u.targets ⊆ places
  encodable : ∀ entry ∈ site.page.apis, ∀ u,
    ApiUnit.draftOn d plan site entry.1 entry.2 = .ok u → ∃ samples, u.samples = .same samples
  entries : ∀ entry ∈ site.page.apis, Shallow entry.2
  moderate : ∀ entry ∈ site.page.apis, ∀ u,
    ApiUnit.draftOn d plan site entry.1 entry.2 = .ok u →
      ∀ samples, u.samples = .same samples → Moderate samples
  samples : ∀ entry ∈ site.page.apis, ∀ api, ApiUnit.apiOf site entry.1 entry.2 = .ok api →
    ∀ place ∈ ApiUnit.samplePlaces plan api, d.Steady places place
  project : site.wantsLayers plan = true → d.Steady places (projectPlace plan)

/-- A run is under way that began on `d`. -/
structure Going (plan : Plan) (places : List Location) (d : Disk) (known : String) (memory : Memory)
    (project : Project) : Prop where
  frame : Frame places d project.disk
  receptive : project.disk.Receptive plan.mode places
  samples : memory.samples.Of d
  named : Named d plan known project.name

section Going

variable {plan : Plan} {site : Site} {places : List Location} {d : Disk} {known name : String}
  {raw : Json} {memory : Memory} {project : Project}

/-- The actions of a unit can be done where the page is under way. -/
theorem Site.Ready.script (hready : site.Ready plan places d) (hentry : (name, raw) ∈ site.page.apis)
    (scope : Scope) (called : Except Failure String) :
    ∀ a ∈ ApiUnit.script (ApiUnit.draftOn d plan site name raw) scope called,
      a.Within places ∧ a.Encodes := by
  cases hdraft : ApiUnit.draftOn d plan site name raw with
  | error failure => exact List.forall_mem_singleton.mpr ⟨fun _ hl => (nomatch hl), trivial⟩
  | ok u =>
      obtain ⟨samples, hsame⟩ := hready.encodable _ hentry u hdraft
      exact fun a ha => ⟨(u.within_targets scope called a ha).mono (hready.targets _ hentry u hdraft),
        Draft.encodes_actions scope called hsame a ha⟩

/-- A unit comes to what its fault says, and the run goes on as well as before. -/
theorem Going.exec_task (hready : site.Ready plan places d)
    (h : Going plan places d known memory project) (hapart : d.Apart places)
    (hentry : (name, raw) ∈ site.page.apis) :
    ∃ w', Task.exec (ApiUnit.task plan site name raw) { project, memory } =
        (Action.outcomeOf (ApiUnit.fault d plan site known name raw), w') ∧
      Going plan places d known w'.memory w'.project := by
  have hscript := hready.script hentry memory.scope (nameOn d plan known)
  have hsamples : ∀ api, ApiUnit.apiOf site name raw = .ok api →
      ∀ place ∈ ApiUnit.samplePlaces plan api, SameText d project.disk place :=
    fun api hapi place hplace => hready.samples _ hentry api hapi place hplace _ h.frame
  have halike : ∀ u, ApiUnit.draftOn d plan site name raw = .ok u →
      ∀ b, Action.performAll plan.mode (benchOf memory project) (u.models memory.scope) =
        (.ok (), b) → site.wantsLayers plan = true → NamedAlike plan d b.disk := by
    intro u hdraft b hmodels hlayers
    rw [hdraft] at hscript
    exact ApiUnit.namedAlike_models hapart (hready.project hlayers) h.frame
      (fun a ha => (hscript a ha).1) plan.mode hmodels
  obtain ⟨w', hexec, hbench, hof⟩ := ApiUnit.exec_task (w := { project, memory }) h.samples h.named rfl
    hsamples halike
  have hreceptive : (benchOf memory project).disk.Receptive plan.mode places := h.receptive
  obtain ⟨houtcome, hafter⟩ := Action.performAll_of_receptive hreceptive hscript
  have hframe := Action.frame_performAll plan.mode hapart (fun a ha => (hscript a ha).1)
    (b := benchOf memory project) h.frame
  have hnamed := ApiUnit.named_script site name raw plan.mode memory.scope
    (b := benchOf memory project) h.named
  rw [ApiUnit.findSome?_script, benchOf] at houtcome
  rw [benchOf, ← hbench] at hafter hframe hnamed
  exact ⟨w', houtcome ▸ hexec, hframe, hafter, hof, hnamed⟩

variable {apis : Entries}

/-- The verdicts on the APIs of a page, as they are configured. -/
def Site.verdicts (d : Disk) (plan : Plan) (site : Site) (known : String) : List Verdict :=
  site.page.apis.map fun entry => ApiUnit.verdict d plan site known entry.1 entry.2

end Going

/-! ### Features that go through -/

namespace Job

variable {plan : Plan} {job : Job} {places : List Location} {d : Disk} {known : String}
  {memory : Memory} {project : Project} {pages : List Page}

end Job

end Run

end DartScaffold
