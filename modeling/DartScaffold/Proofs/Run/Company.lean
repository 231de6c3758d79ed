import DartScaffold.Proofs.Disk.Beside
import DartScaffold.Proofs.Run.Targets

/-!
Units in company. A unit that runs while somebody else writes to the disk ends as it would alone, as long
as its files and samples are out of the other's way. `Undisturbed` is a judgment on tasks with a rule for
each way of composing them, so the unit's own rule follows its code; what it carries is that both runs
have the same memory and trail, and disks on which they stand beside the other writer.
-/

namespace DartScaffold.Run

open Aggregate (FileKind Fragment)
open ClassName (Scope)
open Disk (Beside Location Ours)
open Run.Task

/-- Somebody else who writes. -/
structure Company where
  /-- The disk on which both began. -/
  start : Disk
  ours : List Location
  theirs : List Location
  /-- What the other writer alone has made of the disk. -/
  other : Disk
  /-- How what the project is called alone compares with what it is called in company. -/
  names : String → String → Prop

namespace Company

/-- A project on which one works alone, and the same in company. -/
structure Shares (c : Company) (p p' : Project) : Prop where
  disk : Beside c.start c.ours c.theirs p.disk c.other p'.disk
  name : c.names p.name p'.name

structure Matches (c : Company) (w w' : Workspace) : Prop where
  project : c.Shares w.project w'.project
  memory : w'.memory = w.memory
  trail : w'.trail = w.trail

/-- The task ends in company as it does alone, and what it gives is as `P` says. -/
def Undisturbed {α : Type} (c : Company) (P : α → Prop) (t : Task α) : Prop :=
  ∀ w w', c.Matches w w' → (exec t w').1 = (exec t w).1 ∧ c.Matches (exec t w).2 (exec t w').2 ∧
    ∀ a, (exec t w).1 = .ok a → P a

section Rules

variable {α β : Type} {c : Company} {P : α → Prop} {Q : β → Prop} {w w' : Workspace}

theorem undisturbed_pure {a : α} (h : P a) : c.Undisturbed P (pure a : Task α) :=
  fun _ _ hw => ⟨rfl, hw, fun _ heq => Except.ok.inj heq ▸ h⟩

theorem undisturbed_ofExcept {result : Except Failure α} (h : ∀ a, result = .ok a → P a) :
    c.Undisturbed P (Task.ofExcept result) := by
  intro w w' hw
  rw [exec_ofExcept, exec_ofExcept]
  exact ⟨rfl, hw, h⟩

theorem Undisturbed.bind {t : Task α} {f : α → Task β} (h : c.Undisturbed P t)
    (hnext : ∀ a, P a → c.Undisturbed Q (f a)) : c.Undisturbed Q (t >>= f) := by
  intro w w' hw
  obtain ⟨hsame, hmatches, hP⟩ := h w w' hw
  rw [exec_bind, exec_bind]
  generalize exec t w = left at hsame hmatches hP
  generalize exec t w' = right at hsame hmatches
  obtain ⟨result, w₁⟩ := left
  obtain ⟨result', w₁'⟩ := right
  dsimp only at hsame hmatches hP
  subst hsame
  cases result' with
  | error failure => exact ⟨rfl, hmatches, fun _ => nofun⟩
  | ok a => exact hnext a (hP a rfl) w₁ w₁' hmatches

theorem undisturbed_modify {f : Workspace → Workspace}
    (h : ∀ w w', c.Matches w w' → c.Matches (f w) (f w')) :
    c.Undisturbed (fun _ => True) (modify f : Task Unit) :=
  fun w w' hw => ⟨rfl, h w w' hw, fun _ _ => trivial⟩

/-- A task that asks for what both workspaces give alike. -/
theorem undisturbed_get {f : Workspace → Task α} (hsame : ∀ w w', c.Matches w w' → f w' = f w)
    (h : ∀ w, c.Undisturbed P (f w)) : c.Undisturbed P (get >>= f) := by
  intro w w' hw
  rw [exec_get_bind, exec_get_bind, hsame w w' hw]
  exact h w w w' hw

/-- A value that is known beforehand. -/
theorem undisturbed_known {a : α} {result : Except Failure α} (hresult : result = .ok a)
    {f : α → Task β} (h : c.Undisturbed Q (f a)) : c.Undisturbed Q (Task.ofExcept result >>= f) := by
  subst hresult
  exact (undisturbed_pure rfl : c.Undisturbed (· = a) (pure a)).bind fun _ heq => heq ▸ h

theorem undisturbed_wanted {P : Unit → Prop} {t : Task Unit} (wanted : Bool) (hP : P ())
    (h : wanted = true → c.Undisturbed P t) :
    c.Undisturbed P (if wanted then t else pure ()) := by
  cases wanted with
  | true => exact h rfl
  | false => exact undisturbed_pure hP

/-- The same with something after it. -/
theorem undisturbed_wanted_andThen {t : Task Unit} {t' : Task β} (wanted : Bool)
    (h : wanted = true → c.Undisturbed (fun _ => True) t) (hnext : c.Undisturbed Q t') :
    c.Undisturbed Q (if wanted then t >>= fun _ => t' else t') := by
  cases wanted with
  | true => exact (h rfl).bind fun _ _ => hnext
  | false => exact hnext

theorem undisturbed_forM {f : β → Task Unit} {items : List β}
    (h : ∀ item ∈ items, c.Undisturbed (fun _ => True) (f item)) :
    c.Undisturbed (fun _ => True) (items.forM f) := by
  induction items with
  | nil => exact undisturbed_pure trivial
  | cons item items ih =>
      obtain ⟨hitem, hitems⟩ := List.forall_mem_cons.mp h
      exact hitem.bind fun _ _ => ih hitems

end Rules

/-! ### The steps of a unit -/

section Steps

variable {c : Company} {plan : Plan} {l : Location}

theorem undisturbed_tellWarnings (source : Log.Source) (texts : List String) :
    c.Undisturbed (fun _ => True) (Task.tellWarnings source texts) := by
  intro w w' hw
  rw [exec_tellWarnings, exec_tellWarnings]
  exact ⟨rfl, ⟨⟨hw.project.disk, hw.project.name⟩, hw.memory, hw.trail⟩, fun _ _ => trivial⟩

theorem undisturbed_addWarnings (texts : List String) :
    c.Undisturbed (fun _ => True) (Task.addWarnings texts) :=
  undisturbed_modify fun _ _ hw => ⟨hw.project, hw.memory, by dsimp only; rw [hw.trail]⟩

theorem undisturbed_note (saved : Saved) : c.Undisturbed (fun _ => True) (Task.note saved) :=
  undisturbed_modify fun _ _ hw => ⟨hw.project, hw.memory, by dsimp only; rw [hw.trail]⟩

theorem undisturbed_useSamples (samples : Sample.Cache) :
    c.Undisturbed (fun _ => True) (Task.useSamples samples) :=
  undisturbed_modify fun _ _ hw => ⟨hw.project, by dsimp only; rw [hw.memory], hw.trail⟩

theorem undisturbed_useScope (scope : Scope) :
    c.Undisturbed (fun _ => True) (Task.useScope scope) :=
  undisturbed_modify fun _ _ hw => ⟨hw.project, by dsimp only; rw [hw.memory], hw.trail⟩

theorem undisturbed_isFile (hl : c.start.Clear c.theirs l) :
    c.Undisturbed (fun _ => True) (Task.isFile l) := by
  refine undisturbed_get (fun w w' hw => ?_) fun w => undisturbed_ofExcept fun _ _ => trivial
  rw [(hw.project.disk.sameText hl).isFile_eq]

theorem Matches.load {w w' : Workspace} (hw : c.Matches w w') (hl : c.start.Clear c.theirs l) :
    w'.memory.samples.load w'.project.disk l = w.memory.samples.load w.project.disk l := by
  rw [hw.memory, Sample.Cache.load, Sample.Cache.load,
    Sample.read_eq (hw.project.disk.sameText hl)]

theorem undisturbed_sample (hl : c.start.Clear c.theirs l) :
    c.Undisturbed (fun _ => True) (Task.sample l) := by
  refine undisturbed_get (fun w w' hw => ?_) fun w => ?_
  · rw [hw.load hl]
  · exact (undisturbed_useSamples _).bind fun _ _ => undisturbed_ofExcept fun _ _ => trivial

/-- The place that is named is one of those that are, if it is there at all. -/
theorem undisturbed_place (c : Company) (plan : Plan) (reference : Option String) :
    c.Undisturbed (fun place => ∀ l ∈ place, l ∈ plan.placesOf reference)
      (Task.ofExcept (plan.place? reference)) :=
  undisturbed_ofExcept fun _ => Plan.mem_placesOf

theorem undisturbed_shape {reference : Option String}
    (hl : ∀ l ∈ plan.placesOf reference, c.start.Clear c.theirs l) :
    c.Undisturbed (fun _ => True) (Task.shape plan reference) := by
  refine (undisturbed_place c plan reference).bind fun place hplace =>
    undisturbed_get (fun w w' hw => ?_) fun w => ?_
  · have hshape : w'.memory.samples.shape w'.project.disk place =
        w.memory.samples.shape w.project.disk place := by
      cases place with
      | none => exact congrArg (Prod.mk _) (congrArg Memory.samples hw.memory)
      | some place =>
          rw [Sample.Cache.shape, Sample.Cache.shape, hw.load (hl place (hplace place rfl))]
    rw [hshape]
  · exact (undisturbed_useSamples _).bind fun _ _ => undisturbed_ofExcept fun _ _ => trivial

/-- The disk that a step leaves, and what comes after it. -/
theorem Matches.useDisk {α : Type} {P : α → Prop} {w w' : Workspace} {d d' : Disk} {t : Task α}
    (hw : c.Matches w w') (hd : Beside c.start c.ours c.theirs d c.other d')
    (h : c.Undisturbed P t) :
    (exec (Task.useDisk d' >>= fun _ => t) w').1 = (exec (Task.useDisk d >>= fun _ => t) w).1 ∧
      c.Matches (exec (Task.useDisk d >>= fun _ => t) w).2
        (exec (Task.useDisk d' >>= fun _ => t) w').2 ∧
      ∀ a, (exec (Task.useDisk d >>= fun _ => t) w).1 = .ok a → P a :=
  h { w with project := { w.project with disk := d } }
    { w' with project := { w'.project with disk := d' } } ⟨⟨hd, hw.project.name⟩, hw.memory, hw.trail⟩

theorem undisturbed_save (hl : Ours c.start c.ours c.theirs l) (content : Twin String) :
    c.Undisturbed (fun _ => True) (Task.save plan l content) := by
  intro w w' hw
  obtain ⟨hsaved, hdisk⟩ := hw.project.disk.saveTwin hl plan.mode content
  rw [Task.save, exec_get_bind, exec_get_bind]
  generalize w.project.disk.saveTwin plan.mode l content = left at hsaved hdisk
  generalize w'.project.disk.saveTwin plan.mode l content = right at hsaved hdisk
  obtain ⟨result, d⟩ := left
  obtain ⟨result', d'⟩ := right
  dsimp only at hsaved hdisk ⊢
  subst hsaved
  exact hw.useDisk hdisk ((undisturbed_ofExcept fun _ _ => trivial).bind fun saved _ =>
    undisturbed_note saved)

theorem undisturbed_patch {directory : Location} {fragment : Twin Fragment}
    (hl : Ours c.start c.ours c.theirs (directory.child fragment.first.relativePath)) :
    c.Undisturbed (fun _ => True) (Task.patch plan directory fragment) := by
  intro w w' hw
  obtain ⟨hwarned, hsaved, hdisk⟩ := Aggregate.beside_patch hw.project.disk hl plan.mode fragment
  rw [Task.patch, exec_get_bind, exec_get_bind]
  dsimp only
  generalize Aggregate.patch w.project.disk plan.mode _ fragment = left at hwarned hsaved hdisk
  generalize Aggregate.patch w'.project.disk plan.mode _ fragment = right at hwarned hsaved hdisk
  obtain ⟨warnings, result, d⟩ := left
  obtain ⟨warnings', result', d'⟩ := right
  dsimp only at hwarned hsaved hdisk ⊢
  subst hwarned hsaved
  exact hw.useDisk hdisk ((undisturbed_tellWarnings _ _).bind fun _ _ =>
    (undisturbed_ofExcept fun _ _ => trivial).bind fun saved _ =>
      (undisturbed_note saved).bind fun _ _ => undisturbed_addWarnings _)

/-- What is told on the way apart, the name of the project is what it is called on the disk. -/
theorem exec_projectName (plan : Plan) (w : Workspace) :
    ∃ log, exec (Task.projectName plan) w =
      (nameOn w.project.disk plan w.project.name, { w with project := { w.project with
        log, name := (nameOn w.project.disk plan w.project.name).toOption.getD w.project.name } }) := by
  rw [Task.projectName, exec_get_bind, nameOn]
  dsimp only
  split
  · exact ⟨w.project.log, rfl⟩
  · cases Config.projectName w.project.disk plan.root plan.projectFile with
    | error failure => exact ⟨w.project.log, rfl⟩
    | ok found =>
        obtain ⟨name, warnings⟩ := found
        change ∃ log, exec (Task.tellWarnings .loading warnings >>= fun _ => _) w = _
        rw [exec_bind_ok (exec_tellWarnings .loading warnings w)]
        exact ⟨_, rfl⟩

theorem undisturbed_projectName (c : Company) (plan : Plan)
    (hcalled : ∀ p p', c.Shares p p' → nameOn p'.disk plan p'.name = nameOn p.disk plan p.name)
    (hnames : ∀ p p' name, c.Shares p p' → nameOn p.disk plan p.name = .ok name →
      c.names name name) : c.Undisturbed (fun _ => True) (Task.projectName plan) := by
  intro w w' hw
  obtain ⟨log, hexec⟩ := exec_projectName plan w
  obtain ⟨log', hexec'⟩ := exec_projectName plan w'
  rw [hcalled _ _ hw.project] at hexec'
  rw [hexec, hexec']
  refine ⟨rfl, ⟨⟨hw.project.disk, ?_⟩, hw.memory, hw.trail⟩, fun _ _ => trivial⟩
  cases hname : nameOn w.project.disk plan w.project.name with
  | error failure => exact hw.project.name
  | ok name => exact hnames _ _ name hw.project hname

end Steps

/-! ### A unit -/

/-- The unit of an API is out of the other's way. -/
structure Welcomes (c : Company) (plan : Plan) (site : Site) (api : Api) : Prop where
  own : ∀ l ∈ ApiUnit.ownPlaces plan site api, Ours c.start c.ours c.theirs l
  shared : ∀ kind, Ours c.start c.ours c.theirs (site.aggregate kind)
  samples : ∀ l ∈ ApiUnit.samplePlaces plan api, c.start.Clear c.theirs l
  name : site.wantsLayers plan = true → c.Undisturbed (fun _ => True) (Task.projectName plan)

section Unit

variable {c : Company} {plan : Plan} {site : Site} {api : Api}

theorem undisturbed_checkedApi (site : Site) (name : String) (raw : Json) :
    c.Undisturbed (fun api => ApiUnit.apiOf site name raw = .ok api)
      (ApiUnit.checkedApi site name raw) := by
  rw [ApiUnit.checkedApi, ApiUnit.apiOf]
  cases hbuilt : Validation.buildApi (.str name) raw site.context with
  | error failure =>
      have hnone : c.Undisturbed (fun _ : List Validation.Issue × Except Failure Api => False)
          (Task.ofExcept (.error failure)) := undisturbed_ofExcept fun _ h => by cases h
      exact hnone.bind fun _ => False.elim
  | ok built =>
      exact undisturbed_known rfl ((undisturbed_tellWarnings _ _).bind fun _ _ =>
        undisturbed_ofExcept fun api hok => hok)

theorem undisturbed_headers (hl : ∀ l ∈ plan.placesOf api.header, c.start.Clear c.theirs l) :
    c.Undisturbed (fun _ => True) (ApiUnit.headers plan api) := by
  refine (undisturbed_place c plan api.header).bind fun place hplace => ?_
  cases place with
  | none => exact undisturbed_pure trivial
  | some place =>
      have hclear := hl place (hplace place rfl)
      refine (undisturbed_isFile hclear).bind fun found _ => ?_
      cases found with
      | true =>
          exact (undisturbed_sample hclear).bind fun _ _ => undisturbed_ofExcept fun _ _ => trivial
      | false =>
          exact (undisturbed_tellWarnings _ _).bind fun _ _ =>
            (undisturbed_addWarnings _).bind fun _ _ => undisturbed_pure trivial

theorem undisturbed_samples (hl : ∀ l ∈ ApiUnit.samplePlaces plan api, c.start.Clear c.theirs l) :
    c.Undisturbed (fun _ => True) (ApiUnit.samples plan api) := by
  rw [ApiUnit.samplePlaces] at hl
  obtain ⟨hrequest, hresponse⟩ := List.forall_mem_append.mp hl
  obtain ⟨hbody, hheader⟩ := List.forall_mem_append.mp hrequest
  rw [ApiUnit.samples]
  refine (undisturbed_shape hbody).bind fun body _ => (undisturbed_headers hheader).bind
    fun headers _ => ?_
  cases hmodel : api.returnsModel with
  | true =>
      rw [if_pos hmodel] at hresponse
      exact (undisturbed_shape hresponse).bind fun _ _ => undisturbed_pure trivial
  | false => exact undisturbed_pure trivial

/-! ### What a unit writes -/

variable {u : Draft}

/-- All that is saved is saved at places that are out of the other's way. -/
def Saves (c : Company) (as : List Action) : Prop :=
  ∀ place content, .save place content ∈ as → Ours c.start c.ours c.theirs place

theorem saves_actions
    (hown : ∀ l ∈ ApiUnit.ownPlaces u.plan u.site u.api, Ours c.start c.ours c.theirs l)
    (scope : Scope) (project : Except Failure String) : c.Saves (u.actions scope project) :=
  fun place _ h =>
    hown place (u.saved_actions_subset scope project (List.mem_filterMap.mpr ⟨_, h, rfl⟩))

theorem Saves.mono {as more : List Action} (h : c.Saves more) (hsub : as ⊆ more) : c.Saves as :=
  fun place content hsave => h place content (hsub hsave)

theorem undisturbed_saveBody (hsaves : c.Saves u.bodyActions) :
    c.Undisturbed (fun _ => True) (ApiUnit.saveBody u.plan u.site u.api u.samples) := by
  have hmodel : c.Undisturbed (fun _ => True)
      (ApiUnit.saveModel u.plan u.site.directory (Prod.fst <$> u.bodyModel)) :=
    undisturbed_save (hsaves _ _ (List.mem_append_right _ List.mem_cons_self)) _
  have htest : u.site.wantsTests u.plan = true → c.Undisturbed (fun _ => True) (Task.save u.plan
      (u.site.testDirectory.child (u.site.testSubject u.api).bodyPath) u.bodyTest) := by
    intro hwants
    refine undisturbed_save (hsaves _ u.bodyTest ?_) _
    rw [Draft.bodyActions, if_pos hwants]
    exact List.mem_append_right _ (List.mem_cons_of_mem _ List.mem_cons_self)
  have hfound : c.Undisturbed (· = u.bodyFields) (Task.ofExcept u.bodyFound) :=
    undisturbed_ofExcept fun _ => Twin.eq_map_of_traverse fun _ _ => Sample.eq_of_fieldsOf_obj
  refine hfound.bind fun fields hfields => ?_
  subst hfields
  exact hmodel.bind fun _ _ => undisturbed_wanted _ trivial htest

theorem undisturbed_saveExtra {scope : Scope} (hsaves : c.Saves (u.extraActions scope)) :
    c.Undisturbed (fun _ => True) (ApiUnit.saveExtra u.plan u.api (u.extraModel scope)) := by
  refine (undisturbed_place c u.plan u.api.dirExtra).bind fun place hplace => ?_
  cases place with
  | none => exact undisturbed_pure trivial
  | some directory =>
      exact undisturbed_save (hsaves _ _ (List.mem_append_right _
        (List.mem_map_of_mem (hplace directory rfl)))) _

theorem undisturbed_saveResponse (hsaves : ∀ scope, c.Saves (u.responseActions scope)) :
    c.Undisturbed (fun f => u.Contributes f.first)
      (ApiUnit.saveResponse u.plan u.site u.api u.samples) := by
  have hmodel : ∀ file, Draft.saveModel u.site.directory file ∈ u.responseActions {} →
      c.Undisturbed (fun _ => True) (ApiUnit.saveModel u.plan u.site.directory file) :=
    fun file hmem => undisturbed_save (hsaves {} _ _ hmem) _
  have hresponse := hmodel (Prod.fst <$> u.responseModel) (by simp [Draft.responseActions])
  have hentity := hmodel (Prod.fst <$> u.entityModel) (by simp [Draft.responseActions])
  have htest : ∀ scope, u.site.wantsTests u.plan = true → c.Undisturbed (fun _ => True)
      (Task.save u.plan (u.site.testDirectory.child (u.site.testSubject u.api).responsePath)
        (u.responseTest scope)) := by
    intro scope hwants
    refine undisturbed_save (hsaves scope _ (u.responseTest scope) ?_) _
    simp [Draft.responseActions, hwants]
  have hextra : ∀ scope, c.Saves (u.extraActions scope) :=
    fun scope => (hsaves scope).mono (List.subset_append_right _ _)
  have hmapper : ∀ scope, u.Contributes (Prod.fst <$> u.mapper scope).first := by
    intro scope
    rw [Aggregate.first_map]
    exact u.contributes_mapper scope
  have hfound : c.Undisturbed (· = u.responseFields) (Task.ofExcept u.responseFound) :=
    undisturbed_ofExcept fun _ => Twin.eq_map_of_traverse fun _ _ => Sample.eq_of_fieldsOf_obj
  refine hfound.bind fun fields hfields => ?_
  subst hfields
  refine hresponse.bind fun _ _ => hentity.bind fun _ _ => ?_
  refine undisturbed_get (fun w w' hw => by rw [hw.memory]) fun w => ?_
  exact (undisturbed_useScope (u.mapper w.memory.scope).first.2.2).bind fun _ _ =>
    undisturbed_wanted_andThen _ (htest w.memory.scope)
      ((undisturbed_saveExtra (hextra w.memory.scope)).bind fun _ _ =>
        undisturbed_pure (hmapper w.memory.scope))

theorem undisturbed_saveLayers (hname : c.Undisturbed (fun _ => True) (Task.projectName u.plan))
    (hsaves : ∀ project, c.Saves (u.layerActions project)) :
    c.Undisturbed (fun fs => ∀ f ∈ fs, u.Contributes f.first)
      (ApiUnit.saveLayers u.plan u.site u.api u.samples) := by
  refine hname.bind fun project _ => ?_
  dsimp only
  cases hfragments : (u.context project).traverse Layer.Context.fragments with
  | error failure =>
      have hnone : c.Undisturbed (fun _ : Twin (List Fragment) => False)
          (Task.ofExcept ((u.context project).traverse Layer.Context.fragments)) :=
        undisturbed_ofExcept fun _ hok => absurd (hfragments.symm.trans hok) (by simp)
      exact hnone.bind fun _ => False.elim
  | ok fragments =>
      have hsome : u.layerFragments (.ok project) = .ok fragments.elements := by
        rw [Draft.layerFragments, Except.bind, hfragments]
        rfl
      refine undisturbed_known hfragments ((undisturbed_save (hsaves (.ok project) _
        (Layer.Context.useCase <$> u.context project) ?_) _).bind fun _ _ =>
          undisturbed_pure (u.contributes_layers hsome).1)
      rw [Draft.layerActions, hsome]
      exact List.mem_cons_of_mem _ List.mem_cons_self

theorem undisturbed_patches (hshared : ∀ kind, Ours c.start c.ours c.theirs (u.site.aggregate kind))
    {fs : List (Twin Fragment)} (hfs : ∀ f ∈ fs, u.Contributes f.first) :
    c.Undisturbed (fun _ => True) (fs.forM (Task.patch u.plan u.site.directory)) := by
  refine undisturbed_forM fun f hf => undisturbed_patch ?_
  rw [(hfs f hf).path]
  exact hshared f.first.kind

theorem undisturbed_draft (h : c.Welcomes u.plan u.site u.api) :
    c.Undisturbed (fun _ => True) (do
      ApiUnit.saveBody u.plan u.site u.api u.samples
      let mapper ← if u.api.returnsModel
        then List.singleton <$> ApiUnit.saveResponse u.plan u.site u.api u.samples else pure []
      let layers ← if u.site.wantsLayers u.plan
        then ApiUnit.saveLayers u.plan u.site u.api u.samples else pure []
      (mapper ++ layers).forM (Task.patch u.plan u.site.directory)) := by
  have hmodels : ∀ scope, c.Saves (u.models scope) := fun scope =>
    (saves_actions h.own scope (.error .notUtf8)).mono fun a ha =>
      List.mem_append_left _ (List.mem_append_left _ ha)
  have hbody := undisturbed_saveBody ((hmodels {}).mono (List.subset_append_left _ _))
  have hlayers : u.site.wantsLayers u.plan = true →
      c.Undisturbed (fun fs => ∀ f ∈ fs, u.Contributes f.first)
        (ApiUnit.saveLayers u.plan u.site u.api u.samples) := by
    intro hwants
    refine undisturbed_saveLayers (h.name hwants) fun project =>
      (saves_actions h.own {} project).mono fun a ha =>
        List.mem_append_left _ (List.mem_append_right _ ?_)
    rwa [if_pos hwants]
  have hrest : ∀ mapper : List (Twin Fragment), (∀ f ∈ mapper, u.Contributes f.first) →
      c.Undisturbed (fun _ => True) (do
        let layers ← if u.site.wantsLayers u.plan
          then ApiUnit.saveLayers u.plan u.site u.api u.samples else pure []
        (mapper ++ layers).forM (Task.patch u.plan u.site.directory)) := by
    intro mapper hmapper
    cases hwants : u.site.wantsLayers u.plan with
    | true =>
        exact (hlayers hwants).bind fun fs hfs =>
          undisturbed_patches h.shared (List.forall_mem_append.mpr ⟨hmapper, hfs⟩)
    | false =>
        refine undisturbed_patches h.shared ?_
        rwa [List.append_nil]
  refine hbody.bind fun _ _ => ?_
  cases hmodel : u.api.returnsModel with
  | true =>
      have hresponse : c.Undisturbed (fun f => u.Contributes f.first)
          (ApiUnit.saveResponse u.plan u.site u.api u.samples) := by
        refine undisturbed_saveResponse fun scope => (hmodels scope).mono fun a ha =>
          List.mem_append_right _ ?_
        rwa [if_pos hmodel]
      exact (hresponse.bind (Q := fun fs => ∀ f ∈ fs, u.Contributes f.first) fun f hf =>
        undisturbed_pure fun found hfound => List.mem_singleton.mp hfound ▸ hf).bind hrest
  | false => exact hrest [] (List.forall_mem_nil _)

theorem undisturbed_task {name : String} {raw : Json}
    (h : ∀ api, ApiUnit.apiOf site name raw = .ok api → c.Welcomes plan site api) :
    c.Undisturbed (fun _ => True) (ApiUnit.task plan site name raw) :=
  (undisturbed_checkedApi site name raw).bind fun api hapi =>
    (undisturbed_samples (h api hapi).samples).bind fun samples _ =>
      undisturbed_draft (u := { plan, site, api, samples }) (h api hapi)

/-- In company a unit gives the result that it gives alone. -/
theorem Shares.generate {name : String} {raw : Json} {p p' : Project} (hp : c.Shares p p')
    (memory : Memory) (h : ∀ api, ApiUnit.apiOf site name raw = .ok api → c.Welcomes plan site api) :
    (ApiUnit.generate plan site name raw memory p').1 =
        (ApiUnit.generate plan site name raw memory p).1 ∧
      (ApiUnit.generate plan site name raw memory p').2.1 =
        (ApiUnit.generate plan site name raw memory p).2.1 ∧
      c.Shares (ApiUnit.generate plan site name raw memory p).2.2
        (ApiUnit.generate plan site name raw memory p').2.2 := by
  obtain ⟨hsame, hmatches, -⟩ := undisturbed_task h { project := p, memory }
    { project := p', memory } ⟨hp, rfl, rfl⟩
  have hexec : ∀ p : Project, (ApiUnit.task plan site name raw).run.run { project := p, memory } =
      exec (ApiUnit.task plan site name raw) { project := p, memory } := fun _ => rfl
  simp only [ApiUnit.generate, hexec]
  generalize exec (ApiUnit.task plan site name raw) { project := p, memory } = left at hsame hmatches
  generalize exec (ApiUnit.task plan site name raw) { project := p', memory } = right
    at hsame hmatches
  obtain ⟨outcome, w⟩ := left
  obtain ⟨outcome', w'⟩ := right
  dsimp only at hsame hmatches ⊢
  subst hsame
  rw [hmatches.memory, hmatches.trail]
  cases outcome' with
  | ok _ => exact ⟨rfl, rfl, hmatches.project⟩
  | error failure =>
      dsimp only
      split
      · exact ⟨rfl, rfl, hmatches.project.disk, hmatches.project.name⟩
      · exact ⟨rfl, rfl, hmatches.project⟩

/-! ### Pages -/

theorem beside_pruneEach (mode : Disk.WriteMode) (keep : List String) {d d' : Disk}
    {places : List Location} (hd : Beside c.start c.ours c.theirs d c.other d')
    (hplaces : ∀ l ∈ places, Ours c.start c.ours c.theirs l) :
    (PageUnits.pruneEach mode keep places d').1 = (PageUnits.pruneEach mode keep places d).1 ∧
      (PageUnits.pruneEach mode keep places d').2.1 = (PageUnits.pruneEach mode keep places d).2.1 ∧
      Beside c.start c.ours c.theirs (PageUnits.pruneEach mode keep places d).2.2 c.other
        (PageUnits.pruneEach mode keep places d').2.2 := by
  induction places generalizing d d' with
  | nil => exact ⟨rfl, rfl, hd⟩
  | cons place places ih =>
      obtain ⟨hplace, hrest⟩ := List.forall_mem_cons.mp hplaces
      obtain ⟨hpruned, hdisk⟩ := Aggregate.beside_prune hd hplace mode keep
      rw [PageUnits.pruneEach, PageUnits.pruneEach]
      generalize Aggregate.prune d mode place keep = left at hpruned hdisk
      generalize Aggregate.prune d' mode place keep = right at hpruned hdisk
      obtain ⟨result, e⟩ := left
      obtain ⟨result', e'⟩ := right
      dsimp only at hpruned hdisk
      subst hpruned
      cases result' with
      | error failure => exact ⟨rfl, rfl, hdisk⟩
      | ok saved =>
          obtain ⟨hfiles, houtcome, hleft⟩ := ih hdisk hrest
          exact ⟨congrArg (saved.toList ++ ·) hfiles, houtcome, hleft⟩

theorem Shares.prune {p p' : Project} (hp : c.Shares p p')
    (hshared : ∀ kind, Ours c.start c.ours c.theirs (site.aggregate kind)) :
    (PageUnits.prune plan site p').1 = (PageUnits.prune plan site p).1 ∧
      c.Shares (PageUnits.prune plan site p).2 (PageUnits.prune plan site p').2 := by
  have hplaces : ∀ l ∈ (PageUnits.aggregatePaths site).map site.directory.child,
      Ours c.start c.ours c.theirs l := by
    rw [← site.map_aggregate_kinds]
    intro l hl
    obtain ⟨kind, -, rfl⟩ := List.mem_map.mp hl
    exact hshared kind
  unfold PageUnits.prune
  generalize (PageUnits.aggregatePaths site).map site.directory.child = places at hplaces ⊢
  obtain ⟨hfiles, houtcome, hdisk⟩ :=
    beside_pruneEach plan.mode site.page.apiNames hp.disk hplaces
  dsimp only
  generalize PageUnits.pruneEach plan.mode site.page.apiNames places p.disk = left
    at hfiles houtcome hdisk ⊢
  generalize PageUnits.pruneEach plan.mode site.page.apiNames places p'.disk = right
    at hfiles houtcome hdisk ⊢
  obtain ⟨files, outcome, d⟩ := left
  obtain ⟨files', outcome', d'⟩ := right
  dsimp only at hfiles houtcome hdisk ⊢
  subst hfiles houtcome
  cases outcome' with
  | ok _ => exact ⟨rfl, hdisk, hp.name⟩
  | error failure =>
      cases failure with
      | disk e => exact ⟨rfl, hdisk, hp.name⟩
      | _ => exact ⟨rfl, hdisk, hp.name⟩

end Unit

end Company

end DartScaffold.Run
