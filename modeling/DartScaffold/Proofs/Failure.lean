import DartScaffold.Aggregate.Patch
import DartScaffold.Config.ProjectName
import DartScaffold.Layer.UseCase
import DartScaffold.Proofs.Disk.Basic
import DartScaffold.Run.Task
import DartScaffold.Validation.Entry

/-!
Which stage reports which failures. Checking an entry and rendering a layer can blame the configuration,
reading a sample can blame the sample, and writing a file blames neither.
-/

namespace DartScaffold

open Disk (Location WriteMode)

namespace Failure

/-- The failures that a configuration, a sample or an aggregate file is to blame for. -/
def isDomain : Failure → Bool
  | config _ _ | sample _ _ | noAnchor _ _ => true
  | _ => false

/-- Neither a sample is to blame nor an aggregate file. -/
def spares : Failure → Bool
  | sample _ _ | noAnchor _ _ => false
  | _ => true

/-- An aggregate file is to blame. -/
def lacksAnchor : Failure → Bool
  | noAnchor _ _ => true
  | _ => false

/-- A member of an entry is to blame: it is not what it should be, or cannot be looked up. -/
def blamesEntry : Failure → Bool
  | config _ _ | unhashable _ => true
  | _ => false

/-- A sample is to blame, or its place, or the disk that it is on. -/
def blamesSample : Failure → Bool
  | sample _ _ | disk _ | hugeInteger _ | tooDeep _ | tooManyCalls | unknownHome => true
  | _ => false

/-- A file cannot be read. -/
def blamesFile : Failure → Bool
  | disk _ | notUtf8 => true
  | _ => false

theorem spares_of_isDomain {failure : Failure} (h : failure.isDomain = false) :
    failure.spares = true := by
  cases failure <;> simp_all [isDomain, spares]

theorem spares_of_blamesEntry {failure : Failure} (h : failure.blamesEntry = true) :
    failure.spares = true := by
  cases failure <;> simp_all [blamesEntry, spares]

theorem lacksAnchor_of_blamesSample {failure : Failure} (h : failure.blamesSample = true) :
    failure.lacksAnchor = false := by
  cases failure <;> simp_all [blamesSample, lacksAnchor]

theorem isDomain_of_blamesFile {failure : Failure} (h : failure.blamesFile = true) :
    failure.isDomain = false := by
  cases failure <;> simp_all [blamesFile, isDomain]

theorem lacksAnchor_of_spares {failure : Failure} (h : failure.spares = true) :
    failure.lacksAnchor = false := by
  cases failure <;> simp_all [spares, lacksAnchor]

end Failure

/-- All failures that may come of it are of one kind. -/
def FailsOnly {α : Type} (kind : Failure → Prop) (result : Except Failure α) : Prop :=
  ∀ failure, result = .error failure → kind failure

namespace FailsOnly

variable {α β : Type} {kind other : Failure → Prop} {result : Except Failure α}

theorem ok (a : α) : FailsOnly kind (.ok a) := fun _ h => nomatch h

theorem error {failure : Failure} (h : kind failure) :
    FailsOnly kind (.error failure : Except Failure α) := by
  rintro found heq
  exact Except.error.inj heq ▸ h

theorem mono (h : FailsOnly kind result) (hsub : ∀ failure, kind failure → other failure) :
    FailsOnly other result :=
  fun failure heq => hsub failure (h failure heq)

theorem bind {f : α → Except Failure β} (h : FailsOnly kind result) (hf : ∀ a, FailsOnly kind (f a)) :
    FailsOnly kind (result >>= f) := by
  cases result with
  | error failure => exact .error (h failure rfl)
  | ok a => exact hf a

theorem map (h : FailsOnly kind result) (f : α → β) : FailsOnly kind (f <$> result) := by
  cases result with
  | error failure => exact .error (h failure rfl)
  | ok a => exact .ok _

theorem mapError {result : Except Disk.Error α} (h : ∀ e, kind (.disk e)) :
    FailsOnly kind (result.mapError Failure.disk) := by
  cases result with
  | error e => exact .error (h e)
  | ok a => exact .ok _

theorem traverse {f : α → Except Failure β} (h : ∀ a, FailsOnly kind (f a)) (t : Twin α) :
    FailsOnly kind (t.traverse f) := by
  cases t with
  | same a => exact (h a).map _
  | apart a b => exact (h a).bind fun _ => (h b).bind fun _ => .ok _

end FailsOnly

/-! ### Writing -/

namespace Disk

variable (d : Disk) (mode : WriteMode) (l : Location)

theorem failsOnly_textIfFile : FailsOnly (·.blamesFile = true) (d.textIfFile l) := by
  refine (FailsOnly.mapError fun _ => rfl).bind fun found => ?_
  cases found with
  | false => exact .ok _
  | true =>
      refine FailsOnly.bind ?_ fun _ => .ok _
      refine (FailsOnly.mapError fun _ => rfl).bind fun bytes => ?_
      split
      · exact .ok _
      · exact .error rfl

theorem failsOnly_save (content : String) :
    FailsOnly (·.isDomain = false) (d.save mode l content).1 := by
  have hread := (d.failsOnly_textIfFile l).mono fun _ => Failure.isDomain_of_blamesFile
  rw [save]
  split
  · rename_i failure htext
    exact .error (hread failure htext)
  · dsimp only
    split
    · exact (FailsOnly.mapError fun _ => rfl).map _
    · exact .ok _

theorem failsOnly_saveTwin (content : Twin String) :
    FailsOnly (·.isDomain = false) (d.saveTwin mode l content).1 := by
  rw [saveTwin]
  split
  · rw [refuse]
    split
    · rename_i failure htext
      exact .error (Failure.isDomain_of_blamesFile (d.failsOnly_textIfFile l failure htext))
    · exact (FailsOnly.mapError fun _ => rfl).bind fun _ => .error rfl
  · exact d.failsOnly_save mode l _

end Disk

theorem Aggregate.failsOnly_patch (d : Disk) (mode : WriteMode) (l : Location) (f : Twin Fragment) :
    FailsOnly (·.isDomain = false) (patch d mode l f).2.1 := by
  rw [patch]
  split
  · rename_i failure htext
    exact .error (Failure.isDomain_of_blamesFile (d.failsOnly_textIfFile l failure htext))
  · exact d.failsOnly_saveTwin mode l _

/-! ### Entries, names and layers -/

namespace Validation

theorem failsOnly_isOneOf (names : List String) (value : Json) :
    FailsOnly (·.blamesEntry = true) (isOneOf names value) := by
  cases value with
  | arr items => exact .error rfl
  | obj entries => exact .error rfl
  | _ => exact .ok _

theorem failsOnly_methodFaults (api : String) (value : Option Json) :
    FailsOnly (·.blamesEntry = true) (methodFaults api value) := by
  rw [methodFaults.eq_def]
  split
  · exact .ok _
  · exact .ok _
  · refine (failsOnly_isOneOf _ _).bind fun found => ?_
    split <;> exact .ok _

theorem failsOnly_returnDataFaults (value method : Json) :
    FailsOnly (·.blamesEntry = true) (returnDataFaults value method) := by
  refine (failsOnly_isOneOf _ _).bind fun known => ?_
  cases known with
  | false => exact .ok _
  | true =>
      refine (failsOnly_isOneOf _ _).bind fun streamable => ?_
      split <;> exact .ok _

theorem failsOnly_directiveFaults (entries : Entries) :
    FailsOnly (·.blamesEntry = true) (directiveFaults entries) :=
  (failsOnly_isOneOf _ _).bind fun _ => .ok _

theorem failsOnly_cacheFaults (method : Json) (value : Option Json) :
    FailsOnly (·.blamesEntry = true) (cacheFaults method value) := by
  rw [cacheFaults.eq_def]
  split
  · exact .ok _
  · exact .ok _
  · dsimp only
    split
    · exact (failsOnly_directiveFaults _).bind fun _ => .ok _
    · exact (failsOnly_directiveFaults _).bind fun _ => .ok _
    · exact .ok _

theorem failsOnly_entryIssues (name raw : Json) :
    FailsOnly (·.blamesEntry = true) (entryIssues name raw) := by
  refine FailsOnly.bind ?_ fun _ => .ok _
  rw [entryFaults.eq_def]
  split
  · refine FailsOnly.map ?_ _
    exact (failsOnly_methodFaults _ _).bind fun _ => (failsOnly_returnDataFaults _ _).bind fun _ =>
      (failsOnly_cacheFaults _ _).bind fun _ => .ok _
  · exact .ok _

/-- An entry that is not accepted is the configuration's fault. -/
theorem failsOnly_buildApi (name raw : Json) (context : Entries) :
    FailsOnly (·.blamesEntry = true) ((buildApi name raw context).bind Prod.snd) := by
  cases hissues : entryIssues name raw with
  | error failure =>
      have hfails := failsOnly_entryIssues name raw failure hissues
      simp only [buildApi, hissues]
      exact .error hfails
  | ok issues =>
      simp only [buildApi, hissues]
      change FailsOnly _ (if issues.isValid = true then _ else _)
      split
      · split
        · exact .ok _
        · exact .error rfl
      · exact .error rfl

end Validation

namespace Config

theorem failsOnly_readMapping (d : Disk) (l : Location) :
    FailsOnly (·.spares = true) (readMapping d l) := by
  have hread := (d.failsOnly_textIfFile l).mono fun _ h =>
    Failure.spares_of_isDomain (Failure.isDomain_of_blamesFile h)
  refine hread.bind fun found => ?_
  cases found with
  | none => exact .error rfl
  | some text =>
      dsimp only
      split
      · exact .ok _
      · split
        · exact .error rfl
        · exact .ok _
        · exact .ok _
        · exact .error rfl

theorem failsOnly_projectName (d : Disk) (root : Location) (file : Option Location) :
    FailsOnly (·.spares = true) (projectName d root file) := by
  refine (FailsOnly.mapError fun _ => rfl).bind fun found => ?_
  cases found with
  | false => exact .ok _
  | true =>
      refine (failsOnly_readMapping d _).bind fun entries => ?_
      split <;> exact .ok _

end Config

/-- A layer fails for the parameters of its path alone. -/
theorem Layer.Context.failsOnly_fragments (c : Layer.Context) :
    FailsOnly (·.blamesEntry = true) c.fragments := by
  have hendpoint : FailsOnly (·.blamesEntry = true) c.endpoint := by
    rw [endpoint]
    dsimp only
    split
    · exact .ok _
    · split
      · exact .error rfl
      · exact .ok _
  have hbody : FailsOnly (·.blamesEntry = true) c.dataSourceBody := by
    refine (hendpoint.bind fun _ => .ok _).bind fun arguments => ?_
    split <;> exact .ok _
  exact (hbody.bind fun _ => .ok _).bind fun _ => .ok _

/-! ### Samples -/

namespace Sample

theorem failsOnly_read (d : Disk) (l : Location) : FailsOnly (·.blamesSample = true) (read d l) := by
  have hread := d.failsOnly_textIfFile l
  rw [read]
  dsimp only
  split
  · exact .error rfl
  · rename_i failure hne htext
    have hfile := hread failure htext
    cases failure with
    | disk e => exact .error rfl
    | notUtf8 => exact absurd rfl hne
    | _ => contradiction
  · exact .error rfl
  · split
    · exact .ok _
    · exact .error rfl
    · exact .error rfl
    · exact .error rfl

theorem failsOnly_shapeObject {kind : Failure → Prop} (h : ∀ place fault, kind (.sample place fault))
    (place : String) (value : Json) : FailsOnly kind (shapeObject place value) := by
  rw [shapeObject.eq_def]
  split <;> first
    | exact .ok _
    | exact .error (h _ _)

/-- The fields of an object are found unless its values are nested too deeply. -/
theorem fieldsOf_obj (entries : Entries) (source : Option String) :
    fieldsOf (.obj entries) source =
      if Shape.callLimit < Shape.callsFor (.obj entries) then .error .tooManyCalls
      else .ok (Shape.inferFields entries) := by
  simp only [fieldsOf, Shape.infer]

theorem failsOnly_fieldsOf_obj (entries : Entries) (source : Option String) :
    FailsOnly (· = .tooManyCalls) (fieldsOf (.obj entries) source) := by
  rw [fieldsOf_obj]
  split
  · exact .error rfl
  · exact .ok _

end Sample

namespace Run

/-- A place that is named is found unless it is below a home that nobody knows. -/
theorem failsOnly_place? (plan : Plan) (reference : Option String) :
    FailsOnly (· = .unknownHome) (plan.place? reference) := by
  rw [Plan.place?.eq_def]
  split
  · exact .ok _
  · exact .ok _
  · split
    · exact .ok _
    · exact .error rfl

end Run

end DartScaffold
