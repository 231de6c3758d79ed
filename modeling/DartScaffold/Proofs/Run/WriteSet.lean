import DartScaffold.Proofs.Run.Failing
import DartScaffold.Proofs.Run.Page

/-!
The write set of an API. A unit writes to the files that are its API's own, all named after the API, and to
those that the APIs of its page share; and the APIs of an accepted page share no others. But a file that
is moved onto a directory is left inside it, and the unit succeeds.
-/

namespace DartScaffold.Run

open Aggregate (FileKind)
open Disk (Location WritesTo)
open Run.Task

namespace Site

variable (plan : Plan) (site : Site)

/-- Where the unit of an API writes. -/
def writeSet (api : Api) : List Location :=
  ApiUnit.ownPlaces plan site api ++ (PageUnits.aggregatePaths site).map site.directory.child

variable {plan site}

theorem untemporary_writeSet (api : Api) (d : Disk) : d.Untemporary (site.writeSet plan api) := by
  refine untemporary_of_ends (fun l hl => ?_) d
  rcases List.mem_append.mp hl with hl | hl
  · obtain ⟨file, hfile, rfl⟩ := List.mem_map.mp hl
    exact ⟨_, _, (ApiUnit.ends_ownFiles plan site api file hfile).2⟩
  · rw [← site.map_aggregate_kinds] at hl
    obtain ⟨kind, -, rfl⟩ := List.mem_map.mp hl
    obtain ⟨stem, hends⟩ := site.ends_aggregate kind
    exact ⟨_, _, hends⟩

/-- The APIs of a page that is accepted have different file stems. -/
theorem fileStem_ne (hvalid : (Validation.pageIssues site.page).isValid = true) {name other : String}
    {raw raw' : Json} {api api' : Api} (hentry : (name, raw) ∈ site.page.apis)
    (hentry' : (other, raw') ∈ site.page.apis) (hne : name ≠ other)
    (hapi : ApiUnit.apiOf site name raw = .ok api) (hapi' : ApiUnit.apiOf site other raw' = .ok api') :
    ApiUnit.fileStem api ≠ ApiUnit.fileStem api' := by
  have hnodup := (Validation.nodup_stems_of_clashes hvalid).1
  rw [ApiUnit.fileStem, ApiUnit.fileStem, (ApiUnit.name_of_apiOf hapi).1,
    (ApiUnit.name_of_apiOf hapi').1]
  intro heq
  exact hne (List.inj_on_of_nodup_map hnodup (List.mem_map_of_mem hentry)
    (List.mem_map_of_mem hentry') heq)

end Site

namespace ApiUnit

variable {plan : Plan} {site : Site} {name : String} {raw : Json} {memory memory' : Memory}
  {project project' : Project} {outcome : Except Failure UnitResult}

/-- What the write sets of two APIs have in common are the files that all APIs of the page share. -/
structure Separate (plan : Plan) (site : Site) (d : Disk) (api other : Api) : Prop where
  own : ∀ l ∈ ownPlaces plan site api, ∀ l' ∈ ownPlaces plan site other,
    ∀ key ∈ d.landings l, key ∉ d.landings l'
  shared : ∀ l ∈ ownPlaces plan site api, ∀ path ∈ PageUnits.aggregatePaths site,
    ∀ key ∈ d.landings l, key ∉ d.landings (site.directory.child path)

theorem separate_of_ne {api other : Api} (hne : fileStem api ≠ fileStem other) (d : Disk) :
    Separate plan site d api other where
  own l hl l' hl' := by
    obtain ⟨file, hfile, rfl⟩ := List.mem_map.mp hl
    obtain ⟨file', hfile', rfl⟩ := List.mem_map.mp hl'
    exact disjoint_ownFiles plan site api hfile hfile' (fun heq => absurd heq hne) d
  shared l hl path hpath := by
    obtain ⟨file, hfile, rfl⟩ := List.mem_map.mp hl
    obtain ⟨kind, -, hkind⟩ : ∃ kind ∈ kinds, site.aggregate kind = site.directory.child path := by
      rw [← List.mem_map, site.map_aggregate_kinds]
      exact List.mem_map_of_mem hpath
    rw [← hkind]
    exact (site.disjoint_own_aggregate plan api hfile kind d).1

/-- Whether or not it fails, a unit of an accepted page writes to its own files and to those that are
shared, and to no other; and no other API of the page has own files in common with it. A refused entry
changes nothing. -/
theorem writesTo_generate (hvalid : (Validation.pageIssues site.page).isValid = true)
    (hentry : (name, raw) ∈ site.page.apis)
    (h : generate plan site name raw memory project = (outcome, memory', project')) :
    (∀ failure, apiOf site name raw = .error failure → project'.disk = project.disk) ∧
    ∀ api, apiOf site name raw = .ok api →
      WritesTo plan.mode (site.writeSet plan api) project.disk project'.disk ∧
      ∀ other raw' api', (other, raw') ∈ site.page.apis → name ≠ other →
        apiOf site other raw' = .ok api' → Separate plan site project.disk api api' := by
  obtain ⟨draft, d, known, b, hdrafted, hrun, hdisk, -⟩ := script_of_generate h
  have hunwritten : ∀ failure, draft = .error failure → project'.disk = project.disk := by
    rintro failure rfl
    exact hdisk.symm.trans (congrArg (fun left => left.2.disk) hrun).symm
  refine ⟨fun failure hrefused => ?_, fun api hapi => ⟨?_, fun other raw' api' hentry' hne hapi' => ?_⟩⟩
  · cases hdrafted with
    | refused _ => exact hunwritten _ rfl
    | unread hread _ _ => rw [hrefused] at hread; contradiction
    | read hread _ => rw [hrefused] at hread; contradiction
  · cases hdrafted with
    | refused hrefused => rw [hapi] at hrefused; contradiction
    | unread _ _ _ => rw [hunwritten _ rfl]; exact .refl _ _ _
    | @read read hread samples =>
        obtain rfl := Except.ok.inj (hapi.symm.trans hread)
        let u : Draft := { plan, site, api, samples }
        have hwithin : ∀ a ∈ u.actions memory.scope (nameOn d plan known),
            a.Within (site.writeSet plan api) := by
          refine fun a ha => (Draft.within_actions (u := u) a ha).mono ?_
          rw [Site.writeSet, ← site.map_aggregate_kinds]
          exact List.append_subset.mpr
            ⟨List.subset_append_right _ _, List.subset_append_left _ _⟩
        have hwrites := Action.writesTo_performAll plan.mode
          ⟨project.disk, project.name, memory.scope, []⟩ (Site.untemporary_writeSet api _) hwithin
        have hleft : (Action.performAll plan.mode ⟨project.disk, project.name, memory.scope, []⟩
            (u.actions memory.scope (nameOn d plan known))).2 = b := congrArg Prod.snd hrun
        rwa [hleft, hdisk] at hwrites
  · exact separate_of_ne (Site.fileStem_ne hvalid hentry hentry' hne hapi hapi') project.disk

/-- A page whose API would write its body where a directory stands. -/
def occupiedSite : Site :=
  { feature := { name := "auth", directory := "../outside/auth" }
    page := { name := "login", apis := [("get_user", occupiedEntry)] }
    settings := { layers := false } }
where
  occupiedEntry : Json :=
    .obj [("method", .str "get"), ("path", .str "/user"), ("return_data", .str "raw")]

def occupiedPlace : Disk.Key :=
  ["work", "outside", "auth", "lib", "login", "data", "models", "body", "get_user_body.dart"]

def occupiedProject : Project :=
  { disk := (List.range occupiedPlace.length).foldl
      (fun d n => d.put (occupiedPlace.take (n + 1)) .directory) (Disk.emptyAt ["work", "proj"])
    name := "shop" }

theorem writesTo_generate_occupied :
    ∃ outcome memory' project' api,
      generate {} occupiedSite "get_user" occupiedSite.occupiedEntry (PageUnits.freshMemory occupiedSite)
        occupiedProject = (outcome, memory', project') ∧
      (Validation.pageIssues occupiedSite.page).isValid = true ∧
      ("get_user", occupiedSite.occupiedEntry) ∈ occupiedSite.page.apis ∧
      apiOf occupiedSite "get_user" occupiedSite.occupiedEntry = .ok api ∧
      WritesTo .replace (occupiedSite.writeSet {} api) occupiedProject.disk project'.disk := by
  rcases hrun : generate {} occupiedSite "get_user" occupiedSite.occupiedEntry
    (PageUnits.freshMemory occupiedSite) occupiedProject with ⟨outcome, memory', project'⟩
  have hapi : apiOf occupiedSite "get_user" occupiedSite.occupiedEntry =
      .ok { name := "get_user", method := .get, path := "/user", returnData := .raw } := rfl
  have hvalid : (Validation.pageIssues occupiedSite.page).isValid = true := by decide
  have hentry : ("get_user", occupiedSite.occupiedEntry) ∈ occupiedSite.page.apis :=
    List.mem_singleton.mpr rfl
  exact ⟨outcome, memory', project', _, rfl, hvalid, hentry, hapi,
    ((writesTo_generate hvalid hentry hrun).2 _ hapi).1⟩

/-- The unit succeeds there, and the file that it makes is at no place that it writes to. -/
theorem exists_stray_file :
    ∃ outcome memory' project' api key,
      generate {} occupiedSite "get_user" occupiedSite.occupiedEntry (PageUnits.freshMemory occupiedSite)
        occupiedProject = (outcome, memory', project') ∧
      apiOf occupiedSite "get_user" occupiedSite.occupiedEntry = .ok api ∧
      outcome.toOption.map UnitResult.succeeded = some true ∧
      occupiedProject.disk.entry? key = none ∧
      (project'.disk.entry? key matches some (.file _)) = true ∧
      ∀ l ∈ occupiedSite.writeSet {} api, key ≠ occupiedProject.disk.absoluteKey l := by
  have hsucceeded : (generate {} occupiedSite "get_user" occupiedSite.occupiedEntry
      (PageUnits.freshMemory occupiedSite) occupiedProject).1.toOption.map UnitResult.succeeded =
        some true := by
    decide +kernel
  have hfile : ((generate {} occupiedSite "get_user" occupiedSite.occupiedEntry
      (PageUnits.freshMemory occupiedSite) occupiedProject).2.2.disk.entry?
        (occupiedPlace ++ [Disk.temporaryName "get_user_body.dart"]) matches some (.file _)) = true := by
    decide +kernel
  rcases hrun : generate {} occupiedSite "get_user" occupiedSite.occupiedEntry
    (PageUnits.freshMemory occupiedSite) occupiedProject with ⟨outcome, memory', project'⟩
  rw [hrun] at hsucceeded hfile
  refine ⟨outcome, memory', project', _, _, rfl, rfl, hsucceeded, ?_, hfile, ?_⟩
  · decide +kernel
  · decide +kernel

end ApiUnit

end DartScaffold.Run
