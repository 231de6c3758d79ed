import DartScaffold.Proofs.Failure
import DartScaffold.Proofs.Run.Action
import DartScaffold.Run.ApiUnit

/-!
What a unit reads. The samples of an API are read from a disk that earlier units have written to, or
taken from what their requests left behind; as long as no unit writes to a sample, both are what the
sample was when the page was begun. The same holds of the file that names the project.
-/

namespace DartScaffold

open Disk (Location SameText)

/-! ### Samples -/

namespace Sample

theorem read_eq {d e : Disk} {place : Location} (h : SameText d e place) :
    read e place = read d place := by
  rw [read, read, h.textIfFile_eq]

/-- The shape object of the sample at a place on its own. -/
def shapeOn (d : Disk) : Option Location → Except Failure (Twin (Entries × Bool))
  | none => .ok (.same ([], false))
  | some place => (read d place).bind (Twin.traverse (shapeObject place.toString))

theorem shapeOn_eq {d e : Disk} {place : Option Location} (h : ∀ l ∈ place, SameText d e l) :
    shapeOn e place = shapeOn d place := by
  cases place with
  | none => rfl
  | some place => rw [shapeOn, shapeOn, read_eq (h place rfl)]

namespace Cache

/-- What was kept is what the files hold on `d`. -/
def Of (d : Disk) (cache : Cache) : Prop :=
  ∀ place result, cache.lookup place = some result → result = read d place

variable {d e : Disk} {cache : Cache}

theorem of_nil (d : Disk) : Of d [] := by
  intro place result h
  contradiction

theorem eq_some_of_lookup_append {place other : Location} {result found : Except Failure (Twin Json)}
    (h : List.lookup other (cache ++ [(place, result)]) = some found) :
    cache.lookup other = some found ∨ other = place ∧ found = result := by
  rw [List.lookup_append] at h
  rcases Option.or_eq_some_iff.mp h with h | ⟨-, h⟩
  · exact .inl h
  · rw [List.lookup_cons] at h
    split at h
    · rename_i heq
      exact .inr ⟨eq_of_beq heq, (Option.some.inj h).symm⟩
    · contradiction

theorem Of.append (h : cache.Of d) {place : Location} {result : Except Failure (Twin Json)}
    (hresult : result = read d place) : Of d (cache ++ [(place, result)]) := by
  intro other found hlookup
  rcases eq_some_of_lookup_append hlookup with hlookup | ⟨rfl, rfl⟩
  · exact h other found hlookup
  · exact hresult

theorem Of.load (h : cache.Of d) {place : Location} (hsame : SameText d e place) :
    (cache.load e place).1 = read d place ∧ Of d (cache.load e place).2 := by
  rw [Cache.load]
  split
  · rename_i result hlookup
    exact ⟨h _ _ hlookup, h⟩
  · rw [read_eq hsame]
    split
    · rename_i value hread
      exact ⟨hread.symm, h.append hread.symm⟩
    · rename_i failure hread
      refine ⟨hread.symm, ?_⟩
      -- only a failure of the sample is kept
      cases failure <;> first
        | exact h.append hread.symm
        | simpa using h

/-- What is kept of a sample that cannot be used is what reading it reports. -/
def Sound (cache : Cache) : Prop :=
  ∀ place result, cache.lookup place = some result → FailsOnly (·.lacksAnchor = false) result

theorem sound_nil : Sound [] := by
  intro place result h
  contradiction

theorem Sound.append (h : cache.Sound) {place : Location} {result : Except Failure (Twin Json)}
    (hresult : FailsOnly (·.lacksAnchor = false) result) : Sound (cache ++ [(place, result)]) := by
  intro other found hlookup
  rcases eq_some_of_lookup_append hlookup with hlookup | ⟨rfl, rfl⟩
  · exact h other found hlookup
  · exact hresult

theorem Sound.load (h : cache.Sound) (d : Disk) (place : Location) :
    FailsOnly (·.lacksAnchor = false) (cache.load d place).1 ∧ Sound (cache.load d place).2 := by
  have hread := (failsOnly_read d place).mono fun _ => Failure.lacksAnchor_of_blamesSample
  rw [Cache.load]
  split
  · rename_i result hlookup
    exact ⟨h _ _ hlookup, h⟩
  · split
    · exact ⟨.ok _, h.append (.ok _)⟩
    · rename_i failure hfailed
      rw [hfailed] at hread
      refine ⟨hread, ?_⟩
      dsimp only
      split
      · exact h.append hread
      · simpa using h

theorem Of.shape (h : cache.Of d) {place : Option Location} (hsame : ∀ l ∈ place, SameText d e l) :
    (cache.shape e place).1 = shapeOn d place ∧ Of d (cache.shape e place).2 := by
  cases place with
  | none => exact ⟨rfl, h⟩
  | some place =>
      obtain ⟨hload, hof⟩ := h.load (hsame place rfl)
      rw [Cache.shape, shapeOn, ← hload]
      exact ⟨rfl, hof⟩

end Cache
end Sample

namespace Run

open Run.Task

/-! ### Tasks that read -/

/-- A task that read samples left everything else as it was. -/
structure Looked (d : Disk) (w w' : Workspace) : Prop where
  bench : w'.bench = w.bench
  samples : w'.memory.samples.Of d

theorem Looked.disk {d : Disk} {w w' : Workspace} (h : Looked d w w') :
    w'.project.disk = w.project.disk :=
  congrArg Bench.disk h.bench

theorem Looked.trans {d : Disk} {w w' w'' : Workspace} (h : Looked d w w')
    (h' : Looked d w' w'') : Looked d w w'' :=
  ⟨h'.bench.trans h.bench, h'.samples⟩

/-- A task that begins with `P` ends with it, and fails in some ways only. -/
def Keeps {α : Type} (P : Workspace → Prop) (kind : Failure → Prop) (t : Task α) : Prop :=
  ∀ w, P w → FailsOnly kind (exec t w).1 ∧ P (exec t w).2

/-- What is known of a workspace stays known while samples are read. -/
structure Readable (P : Workspace → Prop) (kind : Failure → Prop) : Prop where
  quiet : ∀ {w w'}, Quiet w w' → P w → P w'
  load : ∀ {w} place, P w →
    FailsOnly kind (w.memory.samples.load w.project.disk place).1 ∧
      P { w with memory := { w.memory with
        samples := (w.memory.samples.load w.project.disk place).2 } }
  sample : ∀ place fault, kind (.sample place fault)
  disk : ∀ e, kind (.disk e)
  home : kind .unknownHome

section Keeps

variable {α β : Type} {P : Workspace → Prop} {kind : Failure → Prop}

theorem keeps_pure (a : α) : Keeps P kind (pure a : Task α) := fun _ h => ⟨.ok a, h⟩

theorem keeps_ofExcept {result : Except Failure α} (h : FailsOnly kind result) :
    Keeps P kind (Task.ofExcept result) := by
  intro w hw
  rw [exec_ofExcept]
  exact ⟨h, hw⟩

theorem Keeps.bind {t : Task α} {f : α → Task β} (h : Keeps P kind t)
    (hnext : ∀ a, Keeps P kind (f a)) : Keeps P kind (t >>= f) := by
  intro w hw
  obtain ⟨hfails, hkept⟩ := h w hw
  rw [exec_bind]
  split
  · rename_i a w₁ hexec
    rw [hexec] at hkept
    exact hnext a w₁ hkept
  · rename_i failure w₁ hexec
    rw [hexec] at hfails hkept
    exact ⟨.error (hfails failure rfl), hkept⟩

variable (h : Readable P kind) (plan : Plan)

include h

theorem Readable.tellWarnings (source : Log.Source) (texts : List String) :
    Keeps P kind (Task.tellWarnings source texts) := by
  intro w hw
  obtain ⟨w', htold, hquiet⟩ := quiet_tellWarnings source texts w
  rw [htold]
  exact ⟨.ok _, h.quiet hquiet hw⟩

theorem Readable.ofSample (place : Location) : Keeps P kind (Task.sample place) := by
  intro w hw
  obtain ⟨hfails, hkept⟩ := h.load place hw
  exact keeps_ofExcept hfails _ hkept

/-- The place that is named, if one is. -/
theorem Readable.place (reference : Option String) :
    Keeps P kind (Task.ofExcept (plan.place? reference)) :=
  keeps_ofExcept ((failsOnly_place? plan reference).mono fun _ heq => heq ▸ h.home)

theorem Readable.ofShape (reference : Option String) :
    Keeps P kind (Task.shape plan reference) := by
  refine (h.place plan reference).bind fun place => ?_
  cases place with
  | none => exact fun w hw => ⟨.ok _, hw⟩
  | some place =>
      intro w hw
      obtain ⟨hfails, hkept⟩ := h.load place hw
      exact keeps_ofExcept
        (hfails.bind (.traverse (Sample.failsOnly_shapeObject h.sample place.toString))) _ hkept

theorem Readable.headers (api : Api) : Keeps P kind (ApiUnit.headers plan api) := by
  refine (h.place plan api.header).bind fun place => ?_
  cases place with
  | none => exact keeps_pure _
  | some place =>
      have hfile : Keeps P kind (Task.isFile place) :=
        fun w hw => keeps_ofExcept (.mapError h.disk) w hw
      refine hfile.bind fun found => ?_
      cases found with
      | true =>
          refine (h.ofSample place).bind fun sample => keeps_ofExcept (.traverse (fun value => ?_) _)
          split
          · exact .ok _
          · exact .error (h.sample _ _)
      | false =>
          refine (h.tellWarnings _ _).bind fun _ => Keeps.bind (fun w hw => ?_) fun _ => keeps_pure _
          obtain ⟨w', hadded, hquiet⟩ := quiet_addWarnings _ w
          rw [hadded]
          exact ⟨.ok _, h.quiet hquiet hw⟩

/-- All that a unit reads. -/
theorem Readable.samples (api : Api) : Keeps P kind (ApiUnit.samples plan api) := by
  rw [ApiUnit.samples]
  refine (h.ofShape plan _).bind fun body => (h.headers plan api).bind fun headers => ?_
  cases api.returnsModel with
  | true => exact (h.ofShape plan _).bind fun _ => keeps_pure _
  | false => exact keeps_pure _

omit h

/-- What the actions of a unit work on stays as it is, whatever is read. -/
theorem readable_bench (b : Bench) : Readable (·.bench = b) fun _ => True where
  quiet hquiet hw := hquiet.bench.trans hw
  load _ hw := ⟨fun _ _ => trivial, hw⟩
  sample _ _ := trivial
  disk _ := trivial
  home := trivial

/-- No failure that is remembered is that of an aggregate file. -/
theorem readable_sound :
    Readable (·.memory.samples.Sound) (·.lacksAnchor = false) where
  quiet hquiet hw := hquiet.samples ▸ hw
  load place hw := hw.load _ place
  sample _ _ := rfl
  disk _ := rfl
  home := rfl

end Keeps

/-! ### Samples by their references -/

/-- The place that a reference names, if it names one. -/
def Plan.placesOf (plan : Plan) (reference : Option String) : List Location :=
  (plan.place? reference).toOption.join.toList

theorem Plan.mem_placesOf {plan : Plan} {reference : Option String} {place : Option Location}
    (h : plan.place? reference = .ok place) : ∀ l ∈ place, l ∈ plan.placesOf reference := by
  intro l hl
  rw [placesOf, h]
  exact Option.mem_toList.mpr hl

/-- The shape object of the sample that is named on its own. -/
def shapeFor (d : Disk) (plan : Plan) (reference : Option String) :
    Except Failure (Twin (Entries × Bool)) :=
  (plan.place? reference).bind (Sample.shapeOn d)

theorem shapeFor_eq {d e : Disk} {plan : Plan} {reference : Option String}
    (h : ∀ place ∈ plan.placesOf reference, SameText d e place) :
    shapeFor e plan reference = shapeFor d plan reference := by
  rw [shapeFor, shapeFor]
  cases hplace : plan.place? reference with
  | error failure => rfl
  | ok place => exact Sample.shapeOn_eq fun l hl => h l (Plan.mem_placesOf hplace l hl)

theorem exec_shape {d : Disk} {w : Workspace} {plan : Plan} {reference : Option String}
    (hof : w.memory.samples.Of d)
    (hsame : ∀ place ∈ plan.placesOf reference, SameText d w.project.disk place) :
    ∃ w', exec (Task.shape plan reference) w = (shapeFor d plan reference, w') ∧ Looked d w w' := by
  rw [Task.shape, shapeFor]
  cases hplace : plan.place? reference with
  | error failure => exact ⟨w, rfl, rfl, hof⟩
  | ok place =>
      obtain ⟨hresult, hof'⟩ :=
        hof.shape fun l hl => hsame l (Plan.mem_placesOf hplace l hl)
      let w' : Workspace := { w with memory := { w.memory with
        samples := (w.memory.samples.shape w.project.disk place).2 } }
      refine ⟨w', ?_, rfl, hof'⟩
      change exec (Task.shapeAt place) w = (Sample.shapeOn d place, w')
      rw [← hresult]
      exact exec_ofExcept _ w'

theorem exec_sample {d : Disk} {w : Workspace} {place : Location} (hof : w.memory.samples.Of d)
    (hsame : SameText d w.project.disk place) :
    ∃ w', exec (Task.sample place) w = (Sample.read d place, w') ∧ Looked d w w' := by
  obtain ⟨hresult, hof'⟩ := hof.load hsame
  let w' : Workspace := { w with memory := { w.memory with
    samples := (w.memory.samples.load w.project.disk place).2 } }
  refine ⟨w', ?_, rfl, hof'⟩
  rw [← hresult]
  exact exec_ofExcept _ w'

namespace ApiUnit

/-- The headers in the file at `place`, if there is one. -/
def headersAt (d : Disk) (place : Location) : Except Failure (Twin (Option Entries)) := do
  if ← (d.isFile place).mapError Failure.disk then
    let sample ← Sample.read d place
    sample.traverse fun
      | .obj entries => .ok (some entries)
      | _ => .error (.sample place.toString .headersNotObject)
  else return .same none

/-- The static headers on their own. -/
def headersOn (d : Disk) (plan : Plan) (api : Api) : Except Failure (Twin (Option Entries)) := do
  match ← plan.place? api.header with
  | none => return .same none
  | some place => headersAt d place

/-- What an API's samples show on their own, whatever the other APIs of its page have. -/
def samplesOn (d : Disk) (plan : Plan) (api : Api) : Except Failure (Twin Samples) := do
  let body ← shapeFor d plan api.body
  let headers ← headersOn d plan api
  let response ←
    if api.returnsModel then shapeFor d plan api.response else pure (.same ([], false))
  return do
    let (body, bodyList) ← body
    let (response, responseList) ← response
    return { body, bodyList, headers := ← headers, response, responseList }

/-- Where the samples of an API are. -/
def samplePlaces (plan : Plan) (api : Api) : List Location :=
  plan.placesOf api.body ++ plan.placesOf api.header ++
    if api.returnsModel then plan.placesOf api.response else []

theorem headersOn_eq {d e : Disk} {plan : Plan} {api : Api}
    (h : ∀ place ∈ plan.placesOf api.header, SameText d e place) :
    headersOn e plan api = headersOn d plan api := by
  rw [headersOn, headersOn]
  cases hplace : plan.place? api.header with
  | error failure => rfl
  | ok place =>
      cases place with
      | none => rfl
      | some place =>
          have hsame := h place (Plan.mem_placesOf hplace place rfl)
          change headersAt e place = headersAt d place
          rw [headersAt, headersAt, hsame.isFile_eq, Sample.read_eq hsame]

/-- What an API's samples show depends on their files alone. -/
theorem samplesOn_eq {d e : Disk} {plan : Plan} {api : Api}
    (h : ∀ place ∈ samplePlaces plan api, SameText d e place) :
    samplesOn e plan api = samplesOn d plan api := by
  simp only [samplePlaces, List.mem_append] at h
  have hbody := shapeFor_eq fun place hplace => h place (.inl (.inl hplace))
  have hheaders := headersOn_eq fun place hplace => h place (.inl (.inr hplace))
  rw [samplesOn, samplesOn, hbody, hheaders]
  by_cases hmodel : api.returnsModel = true
  · have hresponse : shapeFor e plan api.response = shapeFor d plan api.response :=
      shapeFor_eq fun place hplace => h place (.inr (by rwa [if_pos hmodel]))
    simp only [hmodel, if_true, hresponse]
  · simp only [hmodel]
    rfl

theorem exec_headers {d : Disk} {w : Workspace} {plan : Plan} {api : Api}
    (hof : w.memory.samples.Of d)
    (hsame : ∀ place ∈ plan.placesOf api.header, SameText d w.project.disk place) :
    ∃ w', exec (headers plan api) w = (headersOn d plan api, w') ∧ Looked d w w' := by
  have hstill : Looked d w w := ⟨rfl, hof⟩
  rw [headers, headersOn]
  cases hnamed : plan.place? api.header with
  | error failure => exact ⟨w, rfl, hstill⟩
  | ok place =>
      cases place with
      | none => exact ⟨w, rfl, hstill⟩
      | some place =>
          have hplace := hsame place (Plan.mem_placesOf hnamed place rfl)
          have hfile : exec (Task.isFile place) w =
              ((d.isFile place).mapError Failure.disk, w) := by
            rw [Task.isFile, exec_get_bind, exec_ofExcept, hplace.isFile_eq]
          change ∃ w', exec (Task.isFile place >>= fun found => _) w = (headersAt d place, w') ∧ _
          rw [headersAt]
          cases hresult : (d.isFile place).mapError Failure.disk with
          | error failure =>
              rw [hresult] at hfile
              exact ⟨w, exec_bind_error hfile _, hstill⟩
          | ok found =>
              rw [hresult] at hfile
              rw [exec_bind_ok hfile]
              cases found with
              | false =>
                  -- nothing is read, and the warning is all there is
                  exact ⟨_, rfl, rfl, hof⟩
              | true =>
                  obtain ⟨w', hread, hlooked⟩ := exec_sample hof hplace
                  refine ⟨w', ?_, hlooked⟩
                  simp only [if_true]
                  cases hsample : Sample.read d place with
                  | error failure =>
                      rw [hsample] at hread
                      exact exec_bind_error hread _
                  | ok sample =>
                      rw [hsample] at hread
                      rw [exec_bind_ok hread]
                      exact exec_ofExcept _ _

/-- All samples that a unit reads, in the order in which it reads them. -/
theorem exec_samples {d : Disk} {w : Workspace} {plan : Plan} {api : Api}
    (hof : w.memory.samples.Of d)
    (hsame : ∀ place ∈ samplePlaces plan api, SameText d w.project.disk place) :
    ∃ w', exec (samples plan api) w = (samplesOn d plan api, w') ∧ Looked d w w' := by
  simp only [samplePlaces, List.mem_append] at hsame
  obtain ⟨w₁, hbody, hlooked₁⟩ := exec_shape hof fun place h => hsame place (.inl (.inl h))
  rw [samples, samplesOn]
  cases hresult₁ : shapeFor d plan api.body with
  | error failure =>
      rw [hresult₁] at hbody
      exact ⟨w₁, exec_bind_error hbody _, hlooked₁⟩
  | ok body =>
      rw [hresult₁] at hbody
      rw [exec_bind_ok hbody]
      obtain ⟨w₂, hheaders, hlooked₂⟩ := exec_headers hlooked₁.samples fun place h =>
        hlooked₁.disk.symm ▸ hsame place (.inl (.inr h))
      cases hresult₂ : headersOn d plan api with
      | error failure =>
          rw [hresult₂] at hheaders
          exact ⟨w₂, exec_bind_error hheaders _, hlooked₁.trans hlooked₂⟩
      | ok headers =>
          rw [hresult₂] at hheaders
          rw [exec_bind_ok hheaders]
          have hlooked := hlooked₁.trans hlooked₂
          by_cases hmodel : api.returnsModel = true
          · obtain ⟨w₃, hresponse, hlooked₃⟩ := exec_shape hlooked.samples fun place h =>
              hlooked.disk.symm ▸ hsame place (.inr (by rwa [if_pos hmodel]))
            simp only [hmodel, if_true]
            refine ⟨w₃, ?_, hlooked.trans hlooked₃⟩
            cases hresult₃ : shapeFor d plan api.response with
            | error failure =>
                rw [hresult₃] at hresponse
                exact exec_bind_error hresponse _
            | ok response =>
                rw [hresult₃] at hresponse
                rw [exec_bind_ok hresponse]
                rfl
          · simp only [hmodel]
            exact ⟨w₂, rfl, hlooked⟩

end ApiUnit

/-! ### The name of the project -/

def projectPlace (plan : Plan) : Location :=
  plan.projectFile.getD (plan.root.child Config.projectFileName)

/-- The project is called the same on both disks, if its name is looked up. -/
def NamedAlike (plan : Plan) (d e : Disk) : Prop :=
  Config.projectName e plan.root plan.projectFile = Config.projectName d plan.root plan.projectFile

theorem namedAlike_of_sameText {d e : Disk} {plan : Plan} (hhome : e.home = d.home)
    (h : SameText d e (projectPlace plan)) : NamedAlike plan d e := by
  have hplace : plan.projectFile.getD (plan.root.child Config.projectFileName) =
      projectPlace plan := rfl
  have hmapping : Config.readMapping e (projectPlace plan) =
      Config.readMapping d (projectPlace plan) := by
    rw [Config.readMapping, Config.readMapping, h.textIfFile_eq]
  have hdirectory : Config.directoryNameAsProject e plan.root =
      Config.directoryNameAsProject d plan.root := by
    funext complaint
    simp only [Config.directoryNameAsProject, Disk.absolute, Disk.absoluteKey_of_home hhome]
  simp only [NamedAlike, Config.projectName, hplace, hmapping, hdirectory, h.isFile_eq]

/-- The name of the project, where `known` is what the options say of it. -/
def nameOn (d : Disk) (plan : Plan) (known : String) : Except Failure String :=
  if known != "" then .ok known
  else (Config.projectName d plan.root plan.projectFile).map Prod.fst

theorem nameOn_eq {d e : Disk} {plan : Plan} (h : NamedAlike plan d e) (known : String) :
    nameOn e plan known = nameOn d plan known := by
  rw [nameOn, nameOn, h]

/-- The name is still to be looked up, or it was. -/
def Named (d : Disk) (plan : Plan) (known name : String) : Prop :=
  name = known ∨ nameOn d plan known = .ok name

theorem nameOn_of_named {d : Disk} {plan : Plan} {known name : String}
    (h : Named d plan known name) (hne : (name != "") = true) :
    nameOn d plan known = .ok name := by
  rcases h with rfl | h
  · rw [nameOn, if_pos hne]
  · exact h

theorem nameOn_of_unnamed {d : Disk} {plan : Plan} {known : String}
    (h : Named d plan known "") :
    nameOn d plan known = (Config.projectName d plan.root plan.projectFile).map Prod.fst := by
  rw [nameOn, if_neg]
  intro hknown
  rcases h with h | h
  · simp [← h] at hknown
  · rw [nameOn, if_pos hknown, Except.ok.injEq] at h
    simp [h] at hknown

section Name

variable {d : Disk} {w : Workspace} {plan : Plan} {known : String}

theorem performs_projectName {name : String} (hnamed : Named d plan known w.project.name)
    (hsame : NamedAlike plan d w.project.disk)
    (hname : nameOn d plan known = .ok name) :
    Performs plan.mode (Task.projectName plan) w [.call name] name := by
  rw [Task.projectName]
  refine performs_get ?_
  dsimp only
  by_cases hknown : (w.project.name != "") = true
  · rw [if_pos hknown]
    obtain rfl : w.project.name = name := by
      rw [nameOn_of_named hnamed hknown] at hname
      exact Except.ok.inj hname
    exact ⟨rfl, rfl, rfl⟩
  · have hempty : w.project.name = "" := by simpa using hknown
    rw [nameOn_of_unnamed (hempty ▸ hnamed)] at hname
    rw [if_neg hknown, hsame]
    cases hfound : Config.projectName d plan.root plan.projectFile with
    | error failure =>
        rw [hfound] at hname
        contradiction
    | ok found =>
        obtain ⟨found, warnings⟩ := found
        obtain rfl : found = name := by
          rw [hfound] at hname
          exact Except.ok.inj hname
        obtain ⟨told, hexec, hquiet⟩ := quiet_tellWarnings .loading warnings w
        have hrun : exec (do
            tellWarnings .loading warnings
            modify fun w => { w with project := { w.project with name := found } }
            return found) w =
            (.ok found, { told with project := { told.project with name := found } }) := by
          rw [exec_bind_ok hexec]
          rfl
        refine ⟨?_, ?_, ?_⟩
        · exact congrArg Prod.fst hrun
        · refine (congrArg (fun outcome => outcome.2.bench) hrun).trans ?_
          exact congrArg (fun bench => { bench with name := found }) hquiet.bench
        · refine (congrArg (fun outcome => outcome.2.memory.samples) hrun).trans ?_
          exact hquiet.samples

theorem exec_projectName_error {failure : Failure} (hnamed : Named d plan known w.project.name)
    (hsame : NamedAlike plan d w.project.disk)
    (hname : nameOn d plan known = .error failure) :
    exec (Task.projectName plan) w = (.error failure, w) := by
  rw [Task.projectName, exec_get_bind]
  dsimp only
  by_cases hknown : (w.project.name != "") = true
  · rw [nameOn_of_named hnamed hknown] at hname
    contradiction
  · have hempty : w.project.name = "" := by simpa using hknown
    rw [nameOn_of_unnamed (hempty ▸ hnamed)] at hname
    rw [if_neg hknown, hsame]
    cases hfound : Config.projectName d plan.root plan.projectFile with
    | error found =>
        rw [hfound] at hname
        rw [Except.error.inj hname.symm]
        rfl
    | ok found =>
        rw [hfound] at hname
        contradiction

end Name

end Run

end DartScaffold
