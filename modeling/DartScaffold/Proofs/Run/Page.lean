import DartScaffold.Proofs.Run.Contribution
import DartScaffold.Proofs.Validation.Page

/-!
The run of a page. Its units come one after the other, and what one of them leaves is left alone by all
the others, and by the pruning in the end; so the files and the blocks of an API are what its own unit
made them. What carries the units is `Underway`: all that was written is in the places of the page, and
the samples that are remembered are those that the page began with.
-/

namespace DartScaffold

namespace Run

open Aggregate (BlockKey CleanAt FileKind Fragment View)
open ClassName (Scope)
open Disk (Entry Frame Location SameText)

namespace Site

variable (plan : Plan) (site : Site)

/-! ### Pages that can be told about -/

/-- The APIs of the page whose entries are accepted. -/
def accepted : List Api :=
  site.page.apis.filterMap fun (name, raw) => (ApiUnit.apiOf site name raw).toOption

/-- Where the page writes. -/
def places : List Location :=
  kinds.map site.aggregate ++ site.accepted.flatMap (ApiUnit.ownPlaces plan site)

/-- Where the page reads: the samples of its APIs, and the file that names the project. -/
def readings : List Location :=
  projectPlace plan :: site.accepted.flatMap (ApiUnit.samplePlaces plan)

/-- No file of the page is in the way of another or of what the page reads, and all of them are reached
by walking, whatever directories the page makes. The names of its APIs have no blanks, and none of their
static headers has a line break (`plain`): a header that has one can write marker lines into the files that
the APIs share. Where pruning is wanted, these files have no stray markers. -/
structure Settled (d : Disk) : Prop where
  apart : d.Apart (site.places plan)
  leads : ∀ l ∈ site.places plan, d.Leads l
  readings : ∀ l ∈ site.readings plan, d.Leads l ∧
    ∀ place ∈ site.places plan, d.absoluteKey l ∉ d.landings place
  plain : ∀ entry ∈ site.page.apis, ∀ u,
    ApiUnit.draftOn d plan site entry.1 entry.2 = .ok u → u.Plain
  clean : site.wantsPruning plan = true →
    ∀ kind, CleanAt (d.entry? (d.absoluteKey (site.aggregate kind)))

variable {plan site}

theorem mem_accepted {name : String} {raw : Json} {api : Api} (h : (name, raw) ∈ site.page.apis)
    (hapi : ApiUnit.apiOf site name raw = .ok api) : api ∈ site.accepted :=
  List.mem_filterMap.mpr ⟨_, h, by simp [hapi, Except.toOption]⟩

theorem aggregate_mem_places (kind : FileKind) : site.aggregate kind ∈ site.places plan :=
  List.mem_append_left _ (List.mem_map_of_mem (mem_kinds kind))

theorem ownPlaces_subset {api : Api} (h : api ∈ site.accepted) :
    ApiUnit.ownPlaces plan site api ⊆ site.places plan :=
  fun _ hl => List.mem_append_right _ (List.mem_flatMap.mpr ⟨api, h, hl⟩)

theorem samplePlaces_subset {api : Api} (h : api ∈ site.accepted) :
    ApiUnit.samplePlaces plan api ⊆ site.readings plan :=
  fun _ hl => List.mem_cons_of_mem _ (List.mem_flatMap.mpr ⟨api, h, hl⟩)

/-- What the page reads stays as it is while the page is written. -/
theorem Settled.steady {d : Disk} (h : site.Settled plan d) {l : Location}
    (hl : l ∈ site.readings plan) : d.Steady (site.places plan) l :=
  (h.readings l hl).1.steady (h.readings l hl).2

/-! ### What an API has -/

/-- From `e` to `e'`, what `api` has on its page is left alone: its own files, and its blocks. -/
structure Leaves (plan : Plan) (site : Site) (d : Disk) (api : Api) (e e' : Disk) : Prop where
  held : ∀ l ∈ ApiUnit.ownPlaces plan site api, ∀ entry,
    Action.Held d l entry e → Action.Held d l entry e'
  seen : ∀ kind part v,
    Action.Seen d (site.aggregate kind) (site.skeleton kind) ⟨part, api.name⟩ v e →
      Action.Seen d (site.aggregate kind) (site.skeleton kind) ⟨part, api.name⟩ v e'

section Leaves

variable {d e e' e'' : Disk} {api : Api}

theorem Leaves.refl (d : Disk) (api : Api) (e : Disk) : site.Leaves plan d api e e :=
  ⟨fun _ _ _ h => h, fun _ _ _ h => h⟩

theorem Leaves.trans (h : site.Leaves plan d api e e') (h' : site.Leaves plan d api e' e'') :
    site.Leaves plan d api e e'' where
  held l hl entry hheld := h'.held l hl entry (h.held l hl entry hheld)
  seen kind part v hseen := h'.seen kind part v (h.seen kind part v hseen)

end Leaves

end Site

/-! ### Drafts -/

/-- A unit stays within the places of its page. -/
theorem Draft.within_places {u : Draft} {scope : Scope} {project : Except Failure String}
    (h : u.api ∈ u.site.accepted) :
    ∀ a ∈ u.actions scope project, a.Within (u.site.places u.plan) :=
  fun a ha => (within_actions a ha).mono (List.append_subset.mpr
    ⟨List.subset_append_left _ _, Site.ownPlaces_subset h⟩)

namespace ApiUnit

variable {d e : Disk} {plan : Plan} {site : Site} {name : String} {raw : Json} {u : Draft}

theorem draftOn_eq_ok (h : draftOn d plan site name raw = .ok u) :
    ∃ api samples, apiOf site name raw = .ok api ∧ samplesOn d plan api = .ok samples ∧
      u = { plan, site, api, samples } := by
  rw [draftOn] at h
  cases hapi : apiOf site name raw with
  | error failure =>
      rw [hapi] at h
      contradiction
  | ok api =>
      rw [hapi] at h
      simp only [bind, Except.bind] at h
      cases hsamples : samplesOn d plan api with
      | error failure =>
          rw [hsamples] at h
          contradiction
      | ok samples =>
          rw [hsamples] at h
          exact ⟨api, samples, rfl, hsamples, (Except.ok.inj h).symm⟩

theorem draftOn_eq (h : ∀ api, apiOf site name raw = .ok api →
      ∀ place ∈ samplePlaces plan api, SameText d e place) :
    draftOn e plan site name raw = draftOn d plan site name raw := by
  rw [draftOn, draftOn]
  cases hapi : apiOf site name raw with
  | error failure => rfl
  | ok api =>
      simp only [bind, Except.bind]
      rw [samplesOn_eq (h api hapi)]

theorem within_script (d : Disk) (plan : Plan) (scope : Scope) (project : Except Failure String)
    (hentry : (name, raw) ∈ site.page.apis) :
    ∀ a ∈ script (draftOn d plan site name raw) scope project, a.Within (site.places plan) := by
  cases hdraft : draftOn d plan site name raw with
  | error failure => exact List.forall_mem_singleton.mpr fun l hl => nomatch hl
  | ok u =>
      obtain ⟨api, samples, hapi, -, rfl⟩ := draftOn_eq_ok hdraft
      exact Draft.within_places (Site.mem_accepted hentry hapi)

/-- The project is called what it is called, whatever of the script is done. -/
theorem named_script (site : Site) (name : String) (raw : Json) (mode : Disk.WriteMode) (scope : Scope)
    {known : String} {b : Bench} (h : Named d plan known b.name) : Named d plan known (Action.performAll mode b
      (script (draftOn d plan site name raw) scope (nameOn d plan known))).2.name := by
  refine Action.performAll_keeps (P := fun b => Named d plan known b.name) (fun a ha b hb => ?_) h
  cases a with
  | call called =>
      cases hdraft : draftOn d plan site name raw with
      | error failure =>
          rw [hdraft] at ha
          exact absurd (List.mem_singleton.mp ha) (by simp)
      | ok u =>
          rw [hdraft] at ha
          exact .inr (Draft.call_actions ha)
  | _ => exact hb

/-- The project's name is looked up once the models are written, and is what it was before. -/
theorem namedAlike_models {places : List Location} (hapart : d.Apart places)
    (hsteady : d.Steady places (projectPlace plan)) {b b' : Bench} (hframe : Frame places d b.disk)
    {scope : Scope} {project : Except Failure String}
    (hwithin : ∀ a ∈ u.actions scope project, a.Within places) (mode : Disk.WriteMode)
    (hmodels : Action.performAll mode b (u.models scope) = (.ok (), b')) :
    NamedAlike plan d b'.disk := by
  have hframe' := Action.frame_performAll mode hapart
    (fun a ha => hwithin a (List.mem_append_left _ (List.mem_append_left _ ha))) hframe
  rw [hmodels] at hframe'
  exact namedAlike_of_sameText hframe'.home (hsteady _ hframe')

/-- The script of another API leaves alone what `api` has. -/
theorem leaves_script (hsettled : site.Settled plan d) (hentry : (name, raw) ∈ site.page.apis)
    {b : Bench} (hframe : Frame (site.places plan) d b.disk) {scope : Scope} (hscope : scope.Safe)
    (project : Except Failure String) {api : Api} (haccepted : api ∈ site.accepted)
    (hstem : fileStem api ≠ Text.snakeCase name) :
    site.Leaves plan d api b.disk (Action.performAll plan.mode b
      (script (draftOn d plan site name raw) scope project)).2.disk := by
  have hwithin := within_script d plan scope project hentry
  cases hdraft : draftOn d plan site name raw with
  | error failure => exact .refl _ _ _
  | ok u =>
      have hplain := hsettled.plain _ hentry u hdraft
      rw [hdraft] at hwithin
      obtain ⟨other, samples, hother, -, rfl⟩ := draftOn_eq_ok hdraft
      let u : Draft := { plan, site, api := other, samples }
      have hname : fileStem api ≠ fileStem u.api := by
        rwa [show fileStem u.api = Text.snakeCase name from
          congrArg Text.snakeCase (name_of_apiOf hother).1]
      refine ⟨fun l hl entry hheld => ?_, fun kind part v hseen => ?_⟩
      · obtain ⟨file, hfile, rfl⟩ := List.mem_map.mp hl
        obtain ⟨hmem, hends⟩ := ends_ownFiles plan site api file hfile
        refine Action.held_performAll hsettled.apart (Site.ownPlaces_subset haccepted hl) hframe
          plan.mode (fun a ha => ⟨?_, hwithin a ha⟩) hheld
        exact Draft.elsewhere_of_stem_ne (u := u) d hends hmem hname a ha
      · refine Action.seen_performAll hsettled.apart (Site.aggregate_mem_places kind) hframe plan.mode
          (fun a ha => ⟨?_, hwithin a ha⟩) hseen
        refine Draft.passes_actions (u := u) d hplain hscope (fun f _ _ block _ heq => hname ?_) a ha
        exact congrArg Text.snakeCase (congrArg BlockKey.api heq)

end ApiUnit

/-! ### The units one after the other -/

/-- The page is under way: it began on `d`. -/
structure Underway (plan : Plan) (site : Site) (d : Disk) (known : String) (memory : Memory)
    (project : Project) : Prop where
  frame : Frame (site.places plan) d project.disk
  samples : memory.samples.Of d
  named : Named d plan known project.name
  safe : memory.scope.Safe
  extends_fresh : (PageUnits.freshMemory site).scope.Extends memory.scope

section Underway

variable {plan : Plan} {site : Site} {d : Disk} {known name : String} {raw : Json}
  {memory memory' : Memory} {project project' : Project} {result : UnitResult}

/-- What the actions of a page work on. -/
def benchOf (memory : Memory) (project : Project) : Bench :=
  Workspace.bench { project, memory }

/-- A unit that is generated works its script off. -/
theorem generate_eq_ok (hsettled : site.Settled plan d)
    (h : Underway plan site d known memory project) (hentry : (name, raw) ∈ site.page.apis)
    (hrun : ApiUnit.generate plan site name raw memory project = (.ok result, memory', project')) :
    result.api = some name ∧ memory'.samples.Of d ∧ ∃ outcome b,
      Action.performAll plan.mode (benchOf memory project) (ApiUnit.script
        (ApiUnit.draftOn d plan site name raw) memory.scope (nameOn d plan known)) = (outcome, b) ∧
      b.disk = project'.disk ∧ b.name = project'.name ∧ b.scope = memory'.scope ∧
      (result.succeeded = true → outcome = .ok ()) := by
  have hsamples : ∀ api, ApiUnit.apiOf site name raw = .ok api →
      ∀ place ∈ ApiUnit.samplePlaces plan api, SameText d project.disk place :=
    fun api hapi place hplace => hsettled.steady
      (Site.samplePlaces_subset (Site.mem_accepted hentry hapi) hplace) _ h.frame
  have halike : ∀ u, ApiUnit.draftOn d plan site name raw = .ok u →
      ∀ b, Action.performAll plan.mode (benchOf memory project) (u.models memory.scope) =
        (.ok (), b) → site.wantsLayers plan = true → NamedAlike plan d b.disk := by
    intro u hdraft b hmodels _
    have hwithin := ApiUnit.within_script d plan memory.scope (nameOn d plan known) hentry
    rw [hdraft] at hwithin
    exact ApiUnit.namedAlike_models hsettled.apart (hsettled.steady List.mem_cons_self) h.frame
      hwithin plan.mode hmodels
  obtain ⟨w', hexec, hbench, hof⟩ := ApiUnit.exec_task (w := { project, memory }) h.samples h.named rfl
    hsamples halike
  have hrunning : (ApiUnit.task plan site name raw).run.run { project, memory } = _ := hexec
  rw [ApiUnit.generate, hrunning] at hrun
  dsimp only at hrun
  cases hall : Action.performAll plan.mode (benchOf memory project) (ApiUnit.script
      (ApiUnit.draftOn d plan site name raw) memory.scope (nameOn d plan known)) with
  | mk outcome b =>
      rw [benchOf] at hall
      rw [hall] at hrun hbench
      obtain rfl : w'.bench = b := hbench
      cases outcome with
      | ok _ =>
          obtain ⟨hresult, hrest⟩ := Prod.mk.inj hrun
          obtain ⟨rfl, rfl⟩ := Prod.mk.inj hrest
          obtain rfl := Except.ok.inj hresult
          exact ⟨rfl, hof, _, _, rfl, rfl, rfl, rfl, fun _ => rfl⟩
      | error failure =>
          dsimp only at hrun
          split at hrun
          · obtain ⟨hresult, hrest⟩ := Prod.mk.inj hrun
            obtain ⟨rfl, rfl⟩ := Prod.mk.inj hrest
            obtain rfl := Except.ok.inj hresult
            exact ⟨rfl, hof, _, _, rfl, rfl, rfl, rfl, fun hsucceeded => nomatch hsucceeded⟩
          · exact absurd (congrArg Prod.fst hrun) (by simp)

theorem Underway.next (hsettled : site.Settled plan d)
    (h : Underway plan site d known memory project) (hentry : (name, raw) ∈ site.page.apis)
    (hrun : ApiUnit.generate plan site name raw memory project = (.ok result, memory', project')) :
    Underway plan site d known memory' project' := by
  obtain ⟨-, hof, outcome, b, hall, hdisk, hname, hscope, -⟩ :=
    generate_eq_ok hsettled h hentry hrun
  have hwithin := ApiUnit.within_script d plan memory.scope (nameOn d plan known) hentry
  have hframe := Action.frame_performAll plan.mode hsettled.apart hwithin
    (b := benchOf memory project) h.frame
  have hnamed := ApiUnit.named_script site name raw plan.mode memory.scope
    (b := benchOf memory project) h.named
  have hkept : b.scope.Safe ∧ (PageUnits.freshMemory site).scope.Extends b.scope := by
    have hkeeps : ∀ a ∈ ApiUnit.script (ApiUnit.draftOn d plan site name raw) memory.scope
        (nameOn d plan known), ∀ b : Bench,
          b.scope.Safe ∧ (PageUnits.freshMemory site).scope.Extends b.scope →
          (a.perform plan.mode b).2.scope.Safe ∧
            (PageUnits.freshMemory site).scope.Extends (a.perform plan.mode b).2.scope := by
      rintro a ha b₁ hkept
      cases hdraft : ApiUnit.draftOn d plan site name raw with
      | error failure =>
          rw [hdraft] at ha
          obtain rfl := List.mem_singleton.mp ha
          exact hkept
      | ok u =>
          rw [hdraft] at ha
          cases a with
          | claim next =>
              obtain rfl := Draft.claim_actions ha
              exact ⟨Mapper.safe_claimsOf h.safe,
                h.extends_fresh.trans (Mapper.extends_claimsOf memory.scope)⟩
          | _ => exact hkept
    have hkept := Action.performAll_keeps (b := benchOf memory project) hkeeps
      ⟨h.safe, h.extends_fresh⟩
    rwa [hall] at hkept
  rw [hall, hdisk] at hframe
  rw [hall, hname] at hnamed
  rw [hscope] at hkept
  exact ⟨hframe, hof, hnamed, hkept.1, hkept.2⟩

theorem Underway.leaves (hsettled : site.Settled plan d)
    (h : Underway plan site d known memory project) (hentry : (name, raw) ∈ site.page.apis)
    (hrun : ApiUnit.generate plan site name raw memory project = (.ok result, memory', project'))
    {api : Api} (haccepted : api ∈ site.accepted) (hstem : ApiUnit.fileStem api ≠ Text.snakeCase name) :
    site.Leaves plan d api project.disk project'.disk := by
  obtain ⟨-, -, outcome, b, hall, hdisk, -⟩ := generate_eq_ok hsettled h hentry hrun
  have hleaves := ApiUnit.leaves_script (b := benchOf memory project) hsettled hentry h.frame h.safe
    (nameOn d plan known) haccepted hstem
  rwa [hall, hdisk] at hleaves

variable {apis : Entries} {results : List UnitResult}

theorem generateApis_cons (hrun : PageUnits.generateApis plan site ((name, raw) :: apis) memory project =
    (.ok results, project')) :
    ∃ result memory₁ project₁ others,
      ApiUnit.generate plan site name raw memory project = (.ok result, memory₁, project₁) ∧
      PageUnits.generateApis plan site apis memory₁ project₁ = (.ok others, project') ∧
      results = result :: others := by
  rw [PageUnits.generateApis] at hrun
  split at hrun
  · exact absurd (congrArg Prod.fst hrun) (by simp)
  · rename_i result memory₁ project₁ hunit
    cases hothers : PageUnits.generateApis plan site apis memory₁ project₁ with
    | mk outcome project₂ =>
        rw [hothers] at hrun
        cases outcome with
        | error failure => exact absurd (congrArg Prod.fst hrun) (by simp [Except.map])
        | ok others =>
            obtain ⟨hresults, rfl⟩ := Prod.mk.inj hrun
            exact ⟨_, _, _, others, hunit, hothers, (Except.ok.inj hresults).symm⟩

/-- Units of other APIs leave alone what an API has. -/
theorem generateApis_leaves (hsettled : site.Settled plan d) (hsub : apis ⊆ site.page.apis)
    (h : Underway plan site d known memory project)
    (hrun : PageUnits.generateApis plan site apis memory project = (.ok results, project')) :
    (∃ memory', Underway plan site d known memory' project') ∧
      (∀ r ∈ results, ∃ entry ∈ apis, r.api = some entry.1) ∧
      ∀ api ∈ site.accepted, (∀ entry ∈ apis, ApiUnit.fileStem api ≠ Text.snakeCase entry.1) →
        site.Leaves plan d api project.disk project'.disk := by
  induction apis generalizing memory project results with
  | nil =>
      obtain ⟨hresults, rfl⟩ := Prod.mk.inj hrun
      obtain rfl := Except.ok.inj hresults
      exact ⟨⟨memory, h⟩, List.forall_mem_nil _, fun api _ _ => .refl _ _ _⟩
  | cons entry apis ih =>
      obtain ⟨hentry, hrest⟩ := List.cons_subset.mp hsub
      obtain ⟨result, memory₁, project₁, others, hunit, hothers, rfl⟩ := generateApis_cons hrun
      obtain ⟨hunder, hapis, hleaves⟩ := ih hrest (h.next hsettled hentry hunit) hothers
      have hname := (generate_eq_ok hsettled h hentry hunit).1
      refine ⟨hunder, List.forall_mem_cons.mpr ⟨⟨_, List.mem_cons_self, hname⟩, fun r hr => ?_⟩,
        fun api haccepted hstems => ?_⟩
      · obtain ⟨entry, hmem, hr⟩ := hapis r hr
        exact ⟨entry, List.mem_cons_of_mem _ hmem, hr⟩
      · obtain ⟨hstem, hstems⟩ := List.forall_mem_cons.mp hstems
        exact (h.leaves hsettled hentry hunit haccepted hstem).trans (hleaves api haccepted hstems)

/-- The mapper names that are claimed when the turn of `name` comes. -/
def scopeBefore (plan : Plan) (site : Site) (name : String) : Entries → Memory → Project → Scope
  | [], memory, _ => memory.scope
  | (first, raw) :: rest, memory, project =>
    if first = name then memory.scope
    else
      let (_, memory, project) := ApiUnit.generate plan site first raw memory project
      scopeBefore plan site name rest memory project

/-- The mapper names that are claimed when the turn of `name` comes, in a run of the page. -/
def scopeAt (plan : Plan) (site : Site) (name : String) (project : Project) : Scope :=
  scopeBefore plan site name site.page.apis (PageUnits.freshMemory site) project

/-- A unit of the results is that of the API, and did not fail. -/
def Succeeds (name : String) (results : List UnitResult) : Prop :=
  ∃ r ∈ results, r.api = some name ∧ r.succeeded = true

/-- The turn of an API in a run of its page from `start` to `e`: what is done before it and after it
leaves alone what the API has. -/
structure Turn (plan : Plan) (site : Site) (d : Disk) (known : String) (start e : Disk) (u : Draft)
    (b b' : Bench) : Prop where
  frame : Frame (site.places plan) d b.disk
  safe : b.scope.Safe
  extends_fresh : (PageUnits.freshMemory site).scope.Extends b.scope
  before : site.Leaves plan d u.api start b.disk
  run : Action.performAll plan.mode b (u.actions b.scope (nameOn d plan known)) = (.ok (), b')
  after : site.Leaves plan d u.api b'.disk e
  frame_end : Frame (site.places plan) d e

/-- Each API that succeeds has its turn. -/
theorem turn_of_generateApis (hsettled : site.Settled plan d) (hsub : apis ⊆ site.page.apis)
    (hstems : (apis.map fun entry => Text.snakeCase entry.1).Nodup)
    (h : Underway plan site d known memory project)
    (hrun : PageUnits.generateApis plan site apis memory project = (.ok results, project'))
    (hok : Succeeds name results) :
    ∃ raw u b b', (name, raw) ∈ apis ∧ ApiUnit.draftOn d plan site name raw = .ok u ∧
      b.scope = scopeBefore plan site name apis memory project ∧
      Turn plan site d known project.disk project'.disk u b b' := by
  induction apis generalizing memory project results with
  | nil =>
      obtain ⟨hresults, rfl⟩ := Prod.mk.inj hrun
      obtain rfl := Except.ok.inj hresults
      obtain ⟨r, hr, -⟩ := hok
      contradiction
  | cons entry apis ih =>
      obtain ⟨first, raw⟩ := entry
      obtain ⟨hentry, hrest⟩ := List.cons_subset.mp hsub
      obtain ⟨hfresh, hstems⟩ := List.nodup_cons.mp hstems
      have hothers : ∀ entry ∈ apis, Text.snakeCase first ≠ Text.snakeCase entry.1 :=
        fun entry hmem heq => hfresh (List.mem_map.mpr ⟨entry, hmem, heq.symm⟩)
      obtain ⟨result, memory₁, project₁, others, hunit, hgenerated, rfl⟩ := generateApis_cons hrun
      obtain ⟨hname, -, outcome, b', hall, hdisk, -, -, hfinished⟩ :=
        generate_eq_ok hsettled h hentry hunit
      have hnext := h.next hsettled hentry hunit
      obtain ⟨⟨_, hend⟩, hapis, hleaves⟩ := generateApis_leaves hsettled hrest hnext hgenerated
      obtain ⟨r, hr, hrname, hsucceeded⟩ := hok
      rcases List.mem_cons.mp hr with rfl | hr
      · -- this is the turn, and the units after it are of other APIs
        obtain rfl : first = name := Option.some.inj (hname.symm.trans hrname)
        obtain rfl := hfinished hsucceeded
        cases hdraft : ApiUnit.draftOn d plan site first raw with
        | error failure =>
            rw [hdraft] at hall
            exact absurd (congrArg Prod.fst hall) (by simp [ApiUnit.script, Action.performAll,
              Action.perform])
        | ok u =>
            rw [hdraft] at hall
            obtain ⟨api, samples, hapi, -, rfl⟩ := ApiUnit.draftOn_eq_ok hdraft
            refine ⟨raw, _, benchOf memory project, b', List.mem_cons_self, hdraft,
              by rw [scopeBefore, if_pos rfl]; rfl, h.frame, h.safe, h.extends_fresh, .refl _ _ _,
              hall, ?_, hend.frame⟩
            rw [hdisk]
            refine hleaves api (Site.mem_accepted hentry hapi) fun entry hmem => ?_
            rw [ApiUnit.fileStem, (ApiUnit.name_of_apiOf hapi).1]
            exact hothers entry hmem
      · obtain ⟨raw', u, b, b', hmem, hdraft, hscope, hturn⟩ :=
          ih hrest hstems hnext hgenerated ⟨r, hr, hrname, hsucceeded⟩
        obtain ⟨api, samples, hapi, -, rfl⟩ := ApiUnit.draftOn_eq_ok hdraft
        have hne : first ≠ name := fun heq => hothers _ hmem (congrArg Text.snakeCase heq)
        refine ⟨raw', _, b, b', List.mem_cons_of_mem _ hmem, hdraft,
          by rw [scopeBefore, if_neg hne, hunit, hscope], { hturn with before := ?_ }⟩
        refine (h.leaves hsettled hentry hunit (Site.mem_accepted (hrest hmem) hapi) ?_).trans
          hturn.before
        rw [ApiUnit.fileStem, (ApiUnit.name_of_apiOf hapi).1]
        exact (hothers _ hmem).symm

end Underway

/-! ### Pruning in the end -/

namespace Site

variable {plan : Plan} {site : Site} {d e : Disk}

theorem isSkeleton_skeleton (site : Site) (kind : FileKind) :
    Aggregate.IsSkeleton (site.skeleton kind) := by
  cases kind with
  | remoteDataSource => exact site.blank.isSkeleton_dataSourceSkeleton
  | repositoryImpl => exact site.blank.isSkeleton_repositoryImplSkeleton
  | domainRepository => exact site.blank.isSkeleton_repositorySkeleton
  | mapper =>
      have hmarkers : ∀ line ∈ Text.splitLines Mapper.skeleton,
          Aggregate.begin? line = none ∧ Aggregate.end? line = none := by
        decide
      have hcarriage : '\r' ∉ Mapper.skeleton.toList := by decide
      obtain ⟨hclean, hkeys⟩ := Aggregate.Document.clean_parse hmarkers
      exact ⟨hcarriage, hclean, hkeys⟩

/-- Pruning leaves alone what an API has that is kept. -/
theorem leaves_prune (hsettled : site.Settled plan d) (hwants : site.wantsPruning plan = true)
    (hframe : Frame (site.places plan) d e) {api : Api} (haccepted : api ∈ site.accepted)
    {keep : List String} (hkeep : api.name ∈ keep) (pruned : FileKind) :
    site.Leaves plan d api e (Aggregate.prune e plan.mode (site.aggregate pruned) keep).2 := by
  have hapart := hsettled.apart.frame hframe
  have hmem : site.aggregate pruned ∈ site.places plan := aggregate_mem_places pruned
  have hpruned := Aggregate.frame_prune (hapart.singleton hmem) plan.mode keep
  refine ⟨fun l hl entry hheld => ?_, fun kind part v hseen => ?_⟩
  · obtain ⟨file, hfile, rfl⟩ := List.mem_map.mp hl
    refine hheld.frame hframe.home hapart (ownPlaces_subset haccepted hl) (by simpa using hmem) hpruned
      (List.forall_mem_singleton.mpr ?_)
    exact (site.disjoint_own_aggregate plan api hfile pruned e).1 _
      (Disk.absoluteKey_mem_landings e file.2)
  · by_cases hkind : kind = pruned
    · subst hkind
      have hclean := hseen.clean (site.isSkeleton_skeleton kind).clean (hsettled.clean hwants kind)
      rw [← Disk.absoluteKey_of_home hframe.home] at hclean
      have hkey : (⟨part, api.name⟩ : BlockKey).api ∈ keep := hkeep
      obtain ⟨hleads, hclean', hview⟩ := Aggregate.prune_landed (hapart.singleton hmem) hseen.leads
        hclean hkey rfl (site.skeleton kind)
      rw [Disk.absoluteKey_of_home hframe.home] at hclean' hview
      exact ⟨hleads, hview.trans hseen.view, fun _ _ => hclean'⟩
    · refine hseen.sameFile hframe.home (hseen.leads.sameFile hpruned
        (List.forall_mem_singleton.mpr ?_))
      exact site.disjoint_aggregates hkind e _ (Disk.absoluteKey_mem_landings e _)

/-- Whatever becomes of the pruning, it stays within the places of the page, and leaves alone what the APIs
have that are kept. -/
theorem leaves_pruneEach (hsettled : site.Settled plan d) (hwants : site.wantsPruning plan = true)
    (hframe : Frame (site.places plan) d e) (keep : List String) (pruned : List FileKind) :
    Frame (site.places plan) d
        (PageUnits.pruneEach plan.mode keep (pruned.map site.aggregate) e).2.2 ∧
      ∀ api ∈ site.accepted, api.name ∈ keep → site.Leaves plan d api e
        (PageUnits.pruneEach plan.mode keep (pruned.map site.aggregate) e).2.2 := by
  induction pruned generalizing e with
  | nil => exact ⟨hframe, fun _ _ _ => .refl _ _ _⟩
  | cons kind pruned ih =>
      have hfirst := fun (api : Api) haccepted (hkeep : api.name ∈ keep) =>
        leaves_prune hsettled hwants hframe haccepted hkeep kind
      have hmem : site.aggregate kind ∈ site.places plan := aggregate_mem_places kind
      have hframe' := hframe.trans ((Aggregate.frame_prune
        ((hsettled.apart.frame hframe).singleton hmem) plan.mode keep).mono (by simpa using hmem))
      rw [List.map_cons, PageUnits.pruneEach]
      split
      · rename_i failure e' hprune
        rw [hprune] at hfirst hframe'
        exact ⟨hframe', hfirst⟩
      · rename_i saved e' hprune
        rw [hprune] at hfirst hframe'
        obtain ⟨hframe'', hrest⟩ := ih hframe'
        exact ⟨hframe'', fun api haccepted hkeep =>
          (hfirst api haccepted hkeep).trans (hrest api haccepted hkeep)⟩

end Site

/-! ### The whole page -/

section Page

variable {plan : Plan} {site : Site} {name : String} {project project' : Project}
  {results : List UnitResult}

theorem not_succeeds_refuse (site : Site) (fault : ConfigFault) (context : Entries)
    (project : Project) (name : String) :
    ¬ Succeeds name (PageUnits.refuse site fault context project).1 := by
  rintro ⟨r, hr, hname, -⟩
  obtain rfl := List.mem_singleton.mp hr
  contradiction

theorem underway_fresh (plan : Plan) (site : Site) (project : Project) :
    Underway plan site project.disk project.name (PageUnits.freshMemory site) project :=
  ⟨.refl _ _, Sample.Cache.of_nil _, .inl rfl, Scope.safe_ofApis _, .refl _⟩

/-- The unit of the pruned files is of no API, and leaves their disk. -/
theorem prune_eq_ok (h : PageUnits.prune plan site project = (.ok results, project')) :
    (∀ r ∈ results, r.api = none) ∧ project'.disk =
      (PageUnits.pruneEach plan.mode site.page.apiNames
        ((PageUnits.aggregatePaths site).map site.directory.child) project.disk).2.2 := by
  unfold PageUnits.prune at h
  dsimp only at h
  generalize PageUnits.pruneEach plan.mode site.page.apiNames
    ((PageUnits.aggregatePaths site).map site.directory.child) project.disk = pruned at h ⊢
  obtain ⟨files, outcome, disk⟩ := pruned
  dsimp only at h ⊢
  split at h
  · obtain ⟨hresults, rfl⟩ := Prod.mk.inj h
    obtain rfl := Except.ok.inj hresults
    refine ⟨fun r hr => ?_, rfl⟩
    split at hr
    · contradiction
    · obtain rfl := List.mem_singleton.mp hr
      rfl
  · obtain ⟨hresults, rfl⟩ := Prod.mk.inj h
    obtain rfl := Except.ok.inj hresults
    refine ⟨List.forall_mem_singleton.mpr rfl, rfl⟩
  · exact absurd (congrArg Prod.fst h) (by simp)

theorem turn_of_generateAccepted (hsettled : site.Settled plan project.disk)
    (hstems : (site.page.apiNames.map Text.snakeCase).Nodup)
    (h : PageUnits.generateAccepted plan site project = (.ok results, project'))
    (hok : Succeeds name results) :
    ∃ raw u b b', (name, raw) ∈ site.page.apis ∧
      ApiUnit.draftOn project.disk plan site name raw = .ok u ∧
      b.scope = scopeAt plan site name project ∧
      Turn plan site project.disk project.name project.disk project'.disk u b b' := by
  have hnames : site.page.apiNames = site.page.apis.map Prod.fst := rfl
  rw [hnames, List.map_map] at hstems
  have hsub : site.page.apis ⊆ site.page.apis := List.Subset.refl _
  have hunder := underway_fresh plan site project
  rw [PageUnits.generateAccepted] at h
  split at h
  · exact absurd (congrArg Prod.fst h) (by simp)
  · rename_i units project₁ hunits
    have hturn := fun hok : Succeeds name units =>
      turn_of_generateApis hsettled hsub hstems hunder hunits hok
    split at h
    · rename_i hwants
      cases hprune : PageUnits.prune plan site project₁ with
      | mk outcome project₂ =>
          rw [hprune] at h
          cases outcome with
          | error failure => exact absurd (congrArg Prod.fst h) (by simp [Except.map])
          | ok pruned =>
              obtain ⟨hresults, rfl⟩ := Prod.mk.inj h
              obtain rfl := Except.ok.inj hresults
              obtain ⟨hnone, hdisk⟩ := prune_eq_ok hprune
              obtain ⟨r, hr, hname, hsucceeded⟩ := hok
              have hr : r ∈ units := (List.mem_append.mp hr).resolve_right fun hmem =>
                nomatch (hnone r hmem).symm.trans hname
              obtain ⟨raw, u, b, b', hentry, hdraft, hscope, hturn⟩ :=
                hturn ⟨r, hr, hname, hsucceeded⟩
              obtain ⟨api, samples, hapi, -, rfl⟩ := ApiUnit.draftOn_eq_ok hdraft
              have hkeep : api.name ∈ site.page.apiNames := by
                rw [(ApiUnit.name_of_apiOf hapi).1, hnames]
                exact List.mem_map_of_mem hentry
              obtain ⟨⟨_, hunder'⟩, -⟩ := generateApis_leaves hsettled hsub hunder hunits
              obtain ⟨hframe, hleaves⟩ := Site.leaves_pruneEach hsettled hwants hunder'.frame
                site.page.apiNames kinds
              rw [site.map_aggregate_kinds, ← hdisk] at hframe hleaves
              exact ⟨raw, _, b, b', hentry, hdraft, hscope, { hturn with
                after := hturn.after.trans (hleaves api (Site.mem_accepted hentry hapi) hkeep)
                frame_end := hframe }⟩
    · obtain ⟨hresults, rfl⟩ := Prod.mk.inj h
      obtain rfl := Except.ok.inj hresults
      exact hturn hok

/-- In the run of a page, each API that succeeds has its turn, and its file stem to itself. -/
theorem turn_of_generate (hsettled : site.Settled plan project.disk)
    (h : PageUnits.generate plan site project = (.ok results, project'))
    (hok : Succeeds name results) :
    (site.page.apiNames.map Text.snakeCase).Nodup ∧ ∃ raw u b b', (name, raw) ∈ site.page.apis ∧
      ApiUnit.draftOn project.disk plan site name raw = .ok u ∧
      b.scope = scopeAt plan site name project ∧
      Turn plan site project.disk project.name project.disk project'.disk u b b' := by
  unfold PageUnits.generate at h
  split at h
  · exact absurd (congrArg Prod.fst h) (by simp)
  · obtain rfl := Except.ok.inj (congrArg Prod.fst h)
    exact absurd hok (not_succeeds_refuse _ _ _ _ _)
  · dsimp only at h
    split at h
    · rename_i hvalid
      have hstems := (Validation.nodup_stems_of_clashes hvalid).1
      exact ⟨hstems, turn_of_generateAccepted hsettled hstems h hok⟩
    · obtain rfl := Except.ok.inj (congrArg Prod.fst h)
      exact absurd hok (not_succeeds_refuse _ _ _ _ _)

end Page

end Run

end DartScaffold
