import DartScaffold.Proofs.Run.Contribution

/-!
Units that fail. A unit reads before it writes, and it merges into the files that it shares only when all
that can be wrong with its configuration has come out. So a bad sample changes nothing, a bad entry
changes none of the shared files, and no unit fails for a shared file without an anchor, whatever is on
the disk.
-/

namespace DartScaffold.Run

open Aggregate (FileKind)
open ClassName (Scope)
open Disk (Location WriteMode)
open Run.Task

/-! ### What actions fail with -/

namespace Action

variable {mode : WriteMode} {as bs : List Action} {kind : Failure → Prop} {b b' : Bench}
  {failure : Failure}

theorem failsOnly_ended (b : Bench) {result : Except Failure Saved × Disk}
    (h : FailsOnly kind result.1) : FailsOnly kind (ended b result).1 :=
  h.map _

theorem failsOnly_perform {a : Action} (h : ∀ failure, a ≠ .fail failure) (mode : WriteMode)
    (b : Bench) : FailsOnly (·.isDomain = false) (a.perform mode b).1 := by
  cases a with
  | save place content => exact failsOnly_ended b (b.disk.failsOnly_saveTwin mode place content)
  | patch place f => exact failsOnly_ended b (Aggregate.failsOnly_patch b.disk mode place f)
  | claim scope => exact .ok _
  | call name => exact .ok _
  | fail failure => exact absurd rfl (h failure)

theorem failsOnly_performAll (h : ∀ a ∈ as, ∀ b, FailsOnly kind (a.perform mode b).1) (b : Bench) :
    FailsOnly kind (performAll mode b as).1 := by
  induction as generalizing b with
  | nil => exact .ok _
  | cons a as ih =>
      obtain ⟨hfirst, hrest⟩ := List.forall_mem_cons.mp h
      rw [performAll]
      split
      · exact ih hrest _
      · rename_i failure b₁ hstep
        exact .error (hfirst b failure (congrArg Prod.fst hstep))

/-- The first of the actions failed, or the others did after them. -/
theorem performAll_append_eq_error (h : performAll mode b (as ++ bs) = (.error failure, b')) :
    performAll mode b as = (.error failure, b') ∨
      ∃ b₁, performAll mode b as = (.ok (), b₁) ∧
        performAll mode b₁ bs = (.error failure, b') := by
  cases hrun : performAll mode b as with
  | mk outcome b₁ =>
      cases outcome with
      | error found => exact .inl ((performAll_append_error hrun).symm.trans h)
      | ok _ => exact .inr ⟨b₁, rfl, (performAll_append_ok hrun).symm.trans h⟩

end Action

namespace Draft

variable {u : Draft} {scope : Scope} {project : Except Failure String} {b b' : Bench}
  {failure : Failure}

/-- What is done before anything is merged. -/
def own (u : Draft) (scope : Scope) (project : Except Failure String) : List Action :=
  u.models scope ++ if u.site.wantsLayers u.plan then u.layerActions project else []

theorem actions_eq : u.actions scope project =
    u.own scope project ++ u.patches (u.fragments scope project) :=
  rfl

theorem within_own : ∀ a ∈ u.own scope project,
    a.Within (ApiUnit.ownPlaces u.plan u.site u.api) := by
  intro a ha l hl
  have hmem : a ∈ u.actions scope project := List.mem_append_left _ ha
  refine (place_actions hmem hl).resolve_right ?_
  rintro ⟨f, -, heq, -⟩
  exact not_patch_of_own (own_of_mem ha) l f heq

/-- The layers are all that can be wrong when the samples are read. -/
theorem failsOnly_own (hproject : FailsOnly (·.spares = true) project) (b : Bench) :
    FailsOnly (·.spares = true) (Action.performAll u.plan.mode b (u.own scope project)).1 := by
  have hwrites : ∀ a : Action, (∀ failure, a ≠ .fail failure) → ∀ b : Bench,
      FailsOnly (·.spares = true) (a.perform u.plan.mode b).1 := fun a ha b =>
    (Action.failsOnly_perform ha u.plan.mode b).mono fun _ => Failure.spares_of_isDomain
  have hmodels : ∀ a ∈ u.models scope, ∀ b,
      FailsOnly (·.spares = true) (a.perform u.plan.mode b).1 :=
    ApiUnit.forall_mem_models u (fun _ => .error rfl) (fun _ => .error rfl)
      (fun _ _ => hwrites _ fun _ => nofun) (hwrites _ fun _ => nofun)
  have hfragments : FailsOnly (·.spares = true) (u.layerFragments project) :=
    hproject.bind fun name => ((FailsOnly.traverse Layer.Context.failsOnly_fragments _).map _).mono
      fun _ => Failure.spares_of_blamesEntry
  have hlayers : ∀ a ∈ u.layerActions project, ∀ b,
      FailsOnly (·.spares = true) (a.perform u.plan.mode b).1 := by
    cases project with
    | error failure =>
        exact List.forall_mem_singleton.mpr fun _ => .error (hproject failure rfl)
    | ok name =>
        refine List.forall_mem_cons.mpr ⟨hwrites _ fun _ => nofun, ?_⟩
        split
        · rename_i failure hfailed
          exact List.forall_mem_singleton.mpr fun _ => .error (hfragments failure hfailed)
        · exact List.forall_mem_singleton.mpr (hwrites _ fun _ => nofun)
  refine Action.failsOnly_performAll (fun a ha => ?_) b
  rcases List.mem_append.mp ha with ha | ha
  · exact hmodels a ha
  · split at ha
    · exact hlayers a ha
    · contradiction

/-- A unit that fails for its configuration fails before anything is merged. -/
theorem performAll_own_of_isDomain
    (h : Action.performAll u.plan.mode b (u.actions scope project) = (.error failure, b'))
    (hdomain : failure.isDomain = true) :
    Action.performAll u.plan.mode b (u.own scope project) = (.error failure, b') := by
  rw [actions_eq] at h
  refine (Action.performAll_append_eq_error h).resolve_right ?_
  rintro ⟨b₁, -, hpatches⟩
  have hfails : FailsOnly (·.isDomain = false)
      (Action.performAll u.plan.mode b₁ (u.patches (u.fragments scope project))).1 := by
    refine Action.failsOnly_performAll (fun a ha => Action.failsOnly_perform ?_ _) b₁
    obtain ⟨f, -, rfl⟩ := List.mem_map.mp ha
    exact fun _ => nofun
  have hfalse := hfails failure (congrArg Prod.fst hpatches)
  exact absurd (hdomain.symm.trans hfalse) (by simp)

theorem spares_of_performAll (hproject : FailsOnly (·.spares = true) project)
    (h : Action.performAll u.plan.mode b (u.actions scope project) = (.error failure, b')) :
    failure.spares = true := by
  cases hdomain : failure.isDomain with
  | false => exact Failure.spares_of_isDomain hdomain
  | true =>
      have hown := performAll_own_of_isDomain h hdomain
      exact failsOnly_own hproject b failure (congrArg Prod.fst hown)

end Draft

/-- A file that is to name the project and does not is the configuration's fault. -/
theorem failsOnly_nameOn (d : Disk) (plan : Plan) (known : String) :
    FailsOnly (·.spares = true) (nameOn d plan known) := by
  rw [nameOn]
  split
  · exact .ok _
  · exact (Config.failsOnly_projectName d plan.root plan.projectFile).map _

namespace ApiUnit

/-- What a unit failed with, whether its result tells so or its page is given up. -/
def failureOf : Except Failure UnitResult → Option Failure
  | .ok result => result.failure
  | .error failure => some failure

/-- The memory of a page at some time: the one that it starts with, or what a unit left it with, whatever
the unit found on the disk. -/
inductive MemoryOf (plan : Plan) (site : Site) : Memory → Prop
  | fresh : MemoryOf plan site (PageUnits.freshMemory site)
  | next {name : String} {raw : Json} {memory memory' : Memory} {project project' : Project}
      {outcome : Except Failure UnitResult} (h : MemoryOf plan site memory)
      (hrun : generate plan site name raw memory project = (outcome, memory', project')) :
      MemoryOf plan site memory'

/-- What a failure of a unit that was begun on `d` left. -/
structure Confined (site : Site) (d d' : Disk) (outcome : Except Failure UnitResult)
    (failure : Failure) : Prop where
  anchored : failure.lacksAnchor = false
  /-- Where a sample is to blame, nothing is changed and no file is listed. -/
  sample : ∀ place fault, failure = .sample place fault →
    d' = d ∧ ∃ result, outcome = .ok result ∧ result.files = []
  /-- Where the configuration is to blame, the files that the APIs of the page share are as they were. -/
  shared : failure.isDomain = true → ∀ path ∈ PageUnits.aggregatePaths site,
    ∀ key ∈ d.landings (site.directory.child path), ∀ bytes,
      d'.entry? key = some (.file bytes) ↔ d.entry? key = some (.file bytes)

section Generate

variable {plan : Plan} {site : Site} {name : String} {raw : Json} {memory memory' : Memory}
  {project project' : Project} {outcome : Except Failure UnitResult} {failure : Failure}

/-- What a unit leaves is what its script leaves, and a memory as good as before. -/
theorem script_of_generate
    (h : generate plan site name raw memory project = (outcome, memory', project')) :
    ∃ draft d known b, Drafted plan site name raw { project, memory } draft ∧
      Action.performAll plan.mode ⟨project.disk, project.name, memory.scope, []⟩
        (script draft memory.scope (nameOn d plan known)) =
          ((failureOf outcome).elim (.ok ()) .error, b) ∧
      b.disk = project'.disk ∧ (∀ result, outcome = .ok result → result.files = b.files) ∧
      (∀ failure, outcome = .error failure → failure.isLocal = false) ∧
      (memory.samples.Sound → memory'.samples.Sound) := by
  obtain ⟨draft, d, known, hdrafted, houtcome, hbench, hsound⟩ :=
    exists_script plan site name raw { project, memory }
  refine ⟨draft, d, known, (exec (task plan site name raw) { project, memory }).2.bench, hdrafted, ?_⟩
  rw [generate] at h
  cases hrun : (task plan site name raw).run.run { project, memory } with
  | mk ended w' =>
      have hexec : exec (task plan site name raw) { project, memory } = (ended, w') := hrun
      rw [hrun] at h
      rw [hexec] at houtcome hbench hsound ⊢
      have hall : ∀ failed : Option Failure, ended = failed.elim (.ok ()) .error →
          Action.performAll plan.mode ⟨project.disk, project.name, memory.scope, []⟩
            (script draft memory.scope (nameOn d plan known)) =
              (failed.elim (.ok ()) .error, w'.bench) :=
        fun failed heq => Prod.ext (houtcome.symm.trans heq) hbench.symm
      cases ended with
      | ok _ =>
          obtain ⟨rfl, hrest⟩ := Prod.mk.inj h
          obtain ⟨rfl, rfl⟩ := Prod.mk.inj hrest
          exact ⟨hall none rfl, rfl, fun result hresult => Except.ok.inj hresult ▸ rfl, fun _ => nofun,
            hsound⟩
      | error failure =>
          dsimp only at h
          split at h
          · obtain ⟨rfl, hrest⟩ := Prod.mk.inj h
            obtain ⟨rfl, rfl⟩ := Prod.mk.inj hrest
            exact ⟨hall (some failure) rfl, rfl, fun result hresult => Except.ok.inj hresult ▸ rfl,
              fun _ => nofun, hsound⟩
          · rename_i hlocal
            obtain ⟨rfl, hrest⟩ := Prod.mk.inj h
            obtain ⟨rfl, rfl⟩ := Prod.mk.inj hrest
            refine ⟨hall (some failure) rfl, rfl, fun _ => nofun, fun found hfound => ?_, hsound⟩
            obtain rfl := Except.error.inj hfound
            simpa using hlocal

theorem MemoryOf.sound (h : MemoryOf plan site memory) : memory.samples.Sound := by
  induction h with
  | fresh => exact Sample.Cache.sound_nil
  | next _ hrun ih =>
      obtain ⟨-, -, -, -, -, -, -, -, -, hsound⟩ := script_of_generate hrun
      exact hsound ih

/-- Whatever is on the disk and whatever the entry: a unit that fails for a sample changes nothing and lists
no files; one that fails for its configuration, wherever that comes out, leaves the files as they are that
the APIs of its page share; and no unit fails for an anchor. -/
theorem confined_generate (hmemory : MemoryOf plan site memory)
    (h : generate plan site name raw memory project = (outcome, memory', project'))
    (hfailed : failureOf outcome = some failure) :
    Confined site project.disk project'.disk outcome failure := by
  obtain ⟨draft, d, known, b, hdrafted, hrun, hdisk, hfiles, hlocal, -⟩ := script_of_generate h
  rw [hfailed] at hrun
  -- a unit that does not set about writing leaves everything as it was
  have hunwritten : ∀ found, draft = .error found → failure = found ∧ project'.disk = project.disk ∧
      b.files = [] := by
    rintro found rfl
    obtain ⟨heq, rfl⟩ := Prod.mk.inj hrun
    exact ⟨(Except.error.inj heq).symm, hdisk.symm, rfl⟩
  have hlisted : b.files = [] → failure.isLocal = true →
      ∃ result, outcome = .ok result ∧ result.files = [] := by
    intro hnone hkind
    cases outcome with
    | ok result => exact ⟨result, rfl, (hfiles result rfl).trans hnone⟩
    | error found =>
        obtain rfl : found = failure := Option.some.inj hfailed
        exact absurd (hkind.symm.trans (hlocal found rfl)) (by simp)
  have hkept : failure.lacksAnchor = false → project'.disk = project.disk → b.files = [] →
      Confined site project.disk project'.disk outcome failure :=
    fun hkind hsame hnone =>
      ⟨hkind, fun place fault hfault => ⟨hsame, hlisted hnone (hfault ▸ rfl)⟩,
        fun _ path _ key _ bytes => by rw [hsame]⟩
  cases hdrafted with
  | refused hrefused =>
      obtain ⟨rfl, hsame, hnone⟩ := hunwritten _ rfl
      have hspares := Failure.spares_of_blamesEntry (Validation.failsOnly_buildApi _ _ _ _ hrefused)
      exact hkept (Failure.lacksAnchor_of_spares hspares) hsame hnone
  | @unread api _ w₁ w₂ hapi hquiet hread =>
      obtain ⟨rfl, hsame, hnone⟩ := hunwritten _ rfl
      have hsound : w₁.memory.samples.Sound := hquiet.samples ▸ hmemory.sound
      exact hkept ((readable_sound.samples plan api w₁ hsound).1 _ (congrArg Prod.fst hread)) hsame hnone
  | @read api hapi samples =>
      let u : Draft := { plan, site, api, samples }
      have hproject := failsOnly_nameOn d plan known
      have hall : Action.performAll u.plan.mode _ (u.actions memory.scope (nameOn d plan known)) =
          (.error failure, b) := hrun
      have hspares := Draft.spares_of_performAll hproject hall
      refine ⟨Failure.lacksAnchor_of_spares hspares, ?_, fun hdomain path hpath key hkey bytes => ?_⟩
      · rintro place fault rfl
        contradiction
      · have hown := Draft.performAll_own_of_isDomain hall hdomain
        have hwithin : ∀ a ∈ u.own memory.scope (nameOn d plan known),
            a.Within (ownPlaces plan site api) := Draft.within_own
        have hwrites := Action.writesTo_performAll plan.mode
          ⟨project.disk, project.name, memory.scope, []⟩ (untemporary_ownPlaces plan site api _)
          hwithin
        rw [hown, hdisk] at hwrites
        refine hwrites.file key (fun l hl hlands => ?_) bytes
        obtain ⟨file, hfile, rfl⟩ := List.mem_map.mp hl
        obtain ⟨kind, -, hkind⟩ : ∃ kind ∈ kinds, site.aggregate kind = site.directory.child path := by
          rw [← List.mem_map, site.map_aggregate_kinds]
          exact List.mem_map_of_mem hpath
        rw [← hkind] at hkey
        have hland := hlands.mem_landings
        rw [Disk.landings_of_home hwrites.home] at hland
        exact (site.disjoint_own_aggregate plan api hfile kind project.disk).2 key hkey hland

end Generate

/-- A page with an API whose path has a parameter, which its body, a list, cannot supply. -/
def listBodySite : Site :=
  { feature := { name := "auth", directory := "/work/auth" }, page := { name := "login" }
    settings := {} }

def listBodyEntry : Json :=
  .obj [("method", .str "get"), ("path", .str "/users/:id"), ("body", .str "body.json")]

def listBodyProject : Project :=
  { disk := (Disk.emptyAt ["work"]).put ["work", "body.json"] (.file "[\x7b\"id\": 1\x7d]".toUTF8)
    name := "shop" }

/-- That comes out when the body model is written already. -/
theorem confined_generate_listBody :
    ∃ outcome memory' project', generate {} listBodySite "getUsers" listBodyEntry
        (PageUnits.freshMemory listBodySite) listBodyProject = (outcome, memory', project') ∧
      MemoryOf {} listBodySite (PageUnits.freshMemory listBodySite) ∧
      failureOf outcome = some (.config .paramsNeedObject
        [("api", .str "getUsers"), ("path", .str "/users/:id")]) ∧
      Confined listBodySite listBodyProject.disk project'.disk outcome
        (.config .paramsNeedObject [("api", .str "getUsers"), ("path", .str "/users/:id")]) := by
  have hfailed : failureOf (generate {} listBodySite "getUsers" listBodyEntry
      (PageUnits.freshMemory listBodySite) listBodyProject).1 = some (.config .paramsNeedObject
        [("api", .str "getUsers"), ("path", .str "/users/:id")]) := by
    decide +kernel
  rcases hrun : generate {} listBodySite "getUsers" listBodyEntry
    (PageUnits.freshMemory listBodySite) listBodyProject with ⟨outcome, memory', project'⟩
  rw [hrun] at hfailed
  exact ⟨outcome, memory', project', rfl, .fresh, hfailed, confined_generate .fresh hrun hfailed⟩

end ApiUnit

end DartScaffold.Run
