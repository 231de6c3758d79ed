import DartScaffold.Proofs.Aggregate.Merge
import DartScaffold.Proofs.Disk.Writable

/-!
Merging on a disk. Where the file is writable every call succeeds and leaves a file that reads as the
merged text, so a sequence of calls is the same sequence of merges of texts.
-/

namespace DartScaffold.Aggregate

open Disk (Location WriteMode)

/-- What one call reports. -/
structure Outcome where
  warnings : List String
  saved : Except Failure Saved

/-- Merges fragments into one file, call after call. -/
def patchAll (mode : WriteMode) (place : Location) : Disk → List Fragment → List Outcome × Disk
  | disk, [] => ([], disk)
  | disk, f :: fs =>
    let (warnings, saved, disk) := patch disk mode place (.same f)
    let (outcomes, disk) := patchAll mode place disk fs
    ({ warnings, saved } :: outcomes, disk)

/-- The text after merging fragments one after the other. -/
def mergeAll : Option String → List Fragment → Option String
  | existing, [] => existing
  | existing, f :: fs => mergeAll (some (mergeText existing f).1) fs

theorem mergeAll_some (text : String) (fs : List Fragment) :
    ∃ merged, mergeAll (some text) fs = some merged := by
  induction fs generalizing text with
  | nil => exact ⟨text, rfl⟩
  | cons f fs ih => exact ih _

/-- The sections that each of the calls finds no anchor for. -/
def missingAll : Option String → List Fragment → List (List String)
  | _, [] => []
  | existing, f :: fs => (mergeText existing f).2 :: missingAll (some (mergeText existing f).1) fs

theorem patch_eq {disk : Disk} {place : Location} {existing : Option String}
    (h : disk.textIfFile place = .ok existing) (mode : WriteMode) (f : Fragment) :
    patch disk mode place (.same f) =
      ((mergeText existing f).2.map (noAnchorWarning place f.api),
        disk.save mode place (mergeText existing f).1) := by
  simp only [patch, h]
  rfl

theorem carriage_not_mem_mergeText {f : Fragment} (hf : f.WellFormed) {existing : Option String}
    (h : ∀ text ∈ existing, '\r' ∉ text.toList) : '\r' ∉ (mergeText existing f).1.toList := by
  have hsource : '\r' ∉ (existing.getD f.skeleton).toList := by
    cases existing with
    | none => exact hf.skeleton
    | some text => exact h text rfl
  exact Document.not_mem_render (by decide)
    (Document.merge_carriage hf (Document.sound_parse _) (Document.lacks_parse hsource))

theorem carriage_not_mem_of_textIfFile {disk : Disk} {place : Location}
    {existing : Option String} (h : disk.textIfFile place = .ok existing) :
    ∀ text ∈ existing, '\r' ∉ text.toList := by
  rintro text rfl
  exact Disk.carriage_not_mem_of_textIfFile h

section Calls

variable {mode : WriteMode} {place : Location} {disk : Disk} {existing : Option String}
  {f : Fragment} {fs : List Fragment}

theorem patch_writable (hf : f.WellFormed) (hexisting : disk.textIfFile place = .ok existing)
    (hdisk : disk.Writable mode place) :
    ∃ saved disk', patch disk mode place (.same f) =
        ((mergeText existing f).2.map (noAnchorWarning place f.api), .ok saved, disk') ∧
      disk'.Writable mode place ∧
      disk'.textIfFile place = .ok (some (mergeText existing f).1) := by
  obtain ⟨saved, disk', hsave, hwritable, hreads⟩ := hdisk.save hexisting
    (carriage_not_mem_mergeText hf (carriage_not_mem_of_textIfFile hexisting))
  refine ⟨saved, disk', ?_, hwritable, hreads⟩
  rw [patch_eq hexisting, hsave]

theorem patchAll_writable (hfs : ∀ f ∈ fs, f.WellFormed)
    (hexisting : disk.textIfFile place = .ok existing) (hdisk : disk.Writable mode place) :
    ∃ outcomes disk', patchAll mode place disk fs = (outcomes, disk') ∧
      disk'.Writable mode place ∧ disk'.textIfFile place = .ok (mergeAll existing fs) ∧
      (∀ outcome ∈ outcomes, outcome.saved.isOk = true) ∧
      outcomes.map Outcome.warnings =
        List.zipWith (fun f missing => missing.map (noAnchorWarning place f.api)) fs
          (missingAll existing fs) := by
  induction fs generalizing disk existing with
  | nil => exact ⟨[], disk, rfl, hdisk, hexisting, by simp, rfl⟩
  | cons f fs ih =>
      obtain ⟨saved, middle, hpatch, hmiddle, hreads⟩ :=
        patch_writable (hfs f List.mem_cons_self) hexisting hdisk
      obtain ⟨outcomes, disk', hall, hwritable, htext, hsaved, hwarnings⟩ :=
        ih (fun g hg => hfs g (List.mem_cons_of_mem _ hg)) hreads hmiddle
      refine ⟨⟨(mergeText existing f).2.map (noAnchorWarning place f.api), .ok saved⟩ :: outcomes,
        disk', ?_, hwritable, htext, ?_, ?_⟩
      · simp only [patchAll, hpatch, hall]
      · intro outcome houtcome
        rcases List.mem_cons.mp houtcome with rfl | houtcome
        · rfl
        · exact hsaved outcome houtcome
      · rw [List.map_cons, hwarnings, missingAll]
        rfl

/-- Where every section has its anchor there are no warnings. -/
theorem warnings_eq_nil {outcomes : List Outcome} {missing : List (List String)}
    (h : outcomes.map Outcome.warnings =
      List.zipWith (fun f missing => missing.map (noAnchorWarning place f.api)) fs missing)
    (hmissing : ∀ sections ∈ missing, sections = []) :
    ∀ outcome ∈ outcomes, outcome.warnings = [] := by
  induction fs generalizing outcomes missing with
  | nil =>
      obtain rfl : outcomes = [] := by simpa using h
      simp
  | cons f fs ih =>
      cases missing with
      | nil =>
          obtain rfl : outcomes = [] := by simpa using h
          simp
      | cons sections missing =>
          obtain ⟨outcome, outcomes, rfl, hfirst, hrest⟩ := List.map_eq_cons_iff.mp h
          rw [hmissing sections List.mem_cons_self] at hfirst
          intro other hother
          rcases List.mem_cons.mp hother with rfl | hother
          · exact hfirst
          · exact ih hrest (fun s hs => hmissing s (List.mem_cons_of_mem _ hs)) other hother

end Calls

/-! ### A file with one call -/

def callsSkeleton : String := "library calls;\n\n  // json2dart:anchor calls\n"

def callFragment (api : String) : Fragment where
  kind := .mapper
  api := api
  relativePath := "calls.dart"
  skeleton := callsSkeleton
  imports := ["import  \"calls_base.dart\" ;", " "]
  blocks := [("calls", "  void " ++ api ++ "();\n")]

def callsPlace : Location := { parts := ["calls.dart"] }

theorem textIfFile_emptyAt : (Disk.emptyAt []).textIfFile callsPlace = .ok none := by
  rfl

theorem writable_emptyAt (mode : WriteMode) : (Disk.emptyAt []).Writable mode callsPlace where
  made := by decide +kernel
  target := by cases mode <;> decide +kernel
  vacant := by
    intro h
    have hnone : Disk.entry? (.emptyAt []) ["calls.dart"] = none := rfl
    exact absurd (hnone.symm.trans h) (by simp)

def callsDisk (text : String) : Disk :=
  (Disk.emptyAt []).put ["calls.dart"] (.file text.toUTF8)

theorem textIfFile_callsDisk (text : String) (h : '\r' ∉ text.toList) :
    (callsDisk text).textIfFile callsPlace = .ok (some text) := by
  have hentry : (callsDisk text).entryAt callsPlace = .ok (.file text.toUTF8) := by
    refine Disk.entryAt_put ?_ ?_
    · decide +kernel
    · simp [Disk.emptyAt, Disk.entry?]
  rw [Disk.textIfFile_of_entryAt hentry (Disk.fromUTF8?_toUTF8 text),
    Text.normalizeNewlines_of_not_mem h, String.ofList_toList]

theorem writable_callsDisk (mode : WriteMode) (text : String) :
    (callsDisk text).Writable mode callsPlace := by
  have hempty := writable_emptyAt mode
  have hkey : (Disk.emptyAt []).absoluteKey callsPlace = ["calls.dart"] := by decide
  obtain ⟨hlong, hway⟩ := Disk.makeDirectory_fst_eq_ok hempty.made
  have hmade : ((Disk.emptyAt []).makeDirectory callsPlace.parent).2 = .emptyAt [] := rfl
  have htarget := hempty.target
  have hvacant := hempty.vacant
  rw [hmade] at hway htarget hvacant
  have hput := Disk.writable_put hlong hway htarget hvacant text.toUTF8
  rwa [hkey] at hput

end DartScaffold.Aggregate
