import DartScaffold.Proofs.Disk.Frame

/-!
The footprint of writes. On any disk whatever, and whether or not they succeed, writes to some places
change the files at these places and no others, except that what is moved onto a directory that stands at
a place is left in that directory under a temporary name. Of the directories nothing is said but that they
stay: `Frame` says more, on a disk where the places are out of each other's way.
-/

namespace DartScaffold.Disk

/-- The bytes that are written to `l` may be left at `key` on `e`. -/
def Lands (mode : WriteMode) (e : Disk) (l : Location) (key : Key) : Prop :=
  key = e.absoluteKey l ∨ mode = .replace ∧ e.entry? (e.absoluteKey l) = some .directory ∧
    key = e.absoluteKey l ++ [temporaryName l.name]

theorem Lands.mem_landings {mode : WriteMode} {e : Disk} {l : Location} {key : Key}
    (h : Lands mode e l key) : key ∈ e.landings l := by
  rcases h with rfl | ⟨-, -, rfl⟩ <;> simp [landings]

/-- No place has the name under which bytes for another are left in a directory. -/
def Untemporary (d : Disk) (places : List Location) : Prop :=
  ∀ l ∈ places, ∀ other ∈ places, d.absoluteKey l ≠ d.absoluteKey other ++ [temporaryName other.name]

/-- `e` is `d` after writes to `places`. -/
structure WritesTo (mode : WriteMode) (places : List Location) (d e : Disk) : Prop where
  home : e.home = d.home
  directory : ∀ key, (∀ l ∈ places, key ≠ d.absoluteKey l ++ [temporaryName l.name]) →
    d.entry? key = some .directory → e.entry? key = some .directory
  file : ∀ key, (∀ l ∈ places, ¬ Lands mode e l key) →
    ∀ bytes, e.entry? key = some (.file bytes) ↔ d.entry? key = some (.file bytes)

section WritesTo

variable {mode : WriteMode} {places more : List Location} {d e f : Disk} {l : Location}

theorem Untemporary.of_home (h : d.Untemporary places) (hhome : e.home = d.home) :
    e.Untemporary places := by
  intro l hl other hother
  rw [absoluteKey_of_home hhome, absoluteKey_of_home hhome]
  exact h l hl other hother

theorem untemporary_singleton (d : Disk) (l : Location) : d.Untemporary [l] := by
  intro other hother other' hother'
  obtain rfl := List.mem_singleton.mp hother
  obtain rfl := List.mem_singleton.mp hother'
  simp

theorem Untemporary.mono (h : d.Untemporary more) (hsub : places ⊆ more) : d.Untemporary places :=
  fun l hl other hother => h l (hsub hl) other (hsub hother)

theorem WritesTo.refl (mode : WriteMode) (places : List Location) (d : Disk) :
    WritesTo mode places d d :=
  ⟨rfl, fun _ _ h => h, fun _ _ _ => Iff.rfl⟩

/-- Where bytes were left they are still in the way of others. -/
theorem WritesTo.lands (h : WritesTo mode places d e) (hplaces : d.Untemporary places)
    (hl : l ∈ places) {key : Key} (hlands : Lands mode d l key) : Lands mode e l key := by
  rw [Lands, absoluteKey_of_home h.home]
  exact hlands.imp_right fun ⟨hmode, hdirectory, hkey⟩ =>
    ⟨hmode, h.directory _ (hplaces l hl) hdirectory, hkey⟩

theorem WritesTo.trans (h : WritesTo mode places d e) (h' : WritesTo mode places e f)
    (hplaces : d.Untemporary places) : WritesTo mode places d f where
  home := h'.home.trans h.home
  directory key hkey hdirectory := by
    refine h'.directory key (fun l hl => ?_) (h.directory key hkey hdirectory)
    rw [absoluteKey_of_home h.home]
    exact hkey l hl
  file key hkey bytes := by
    refine (h'.file key hkey bytes).trans (h.file key (fun l hl hlands => hkey l hl ?_) bytes)
    exact h'.lands (hplaces.of_home h.home) hl hlands

theorem WritesTo.mono (h : WritesTo mode places d e) (hsub : places ⊆ more) :
    WritesTo mode more d e where
  home := h.home
  directory key hkey := h.directory key fun l hl => hkey l (hsub hl)
  file key hkey := h.file key fun l hl => hkey l (hsub hl)

/-- Making directories makes no file. -/
theorem writesTo_makeDirectory (mode : WriteMode) (places : List Location) (d : Disk) (l : Location) :
    WritesTo mode places d (d.makeDirectory l.parent).2 where
  home := (extends_makeDirectory d l.parent).home
  directory key _ := (extends_makeDirectory d l.parent).entries key _
  file key _ _ :=
    ⟨fun hfile => (entry?_makeDirectory hfile).resolve_right fun hmade => Entry.noConfusion hmade.1,
      (extends_makeDirectory d l.parent).entries key _⟩

theorem writesTo_put {key : Key} (htarget : d.target mode l = .ok key) (bytes : ByteArray) :
    WritesTo mode [l] d (d.put key (.file bytes)) := by
  obtain ⟨found, hlocate, hcases⟩ := target_eq_ok htarget
  obtain rfl := locate_eq_ok hlocate
  have hother : ∀ other, other ≠ key → entry? (d.put key (.file bytes)) other = d.entry? other :=
    fun other hne => entry?_put_of_ne hne d _
  have hlands : Lands mode (d.put key (.file bytes)) l key := by
    rw [Lands, absoluteKey_of_home (home_put d key _)]
    refine hcases.imp And.left fun ⟨hkey, hdirectory, hmode⟩ => ⟨hmode, ?_, hkey⟩
    rw [hother _ (by rw [hkey]; simp)]
    exact hdirectory
  refine ⟨rfl, fun other hkey hdirectory => ?_, fun other hkey found => ?_⟩
  · rw [hother]
    · exact hdirectory
    · rintro rfl
      rcases hcases with ⟨rfl, hnot⟩ | ⟨rfl, -⟩
      · exact hnot hdirectory
      · exact hkey l (by simp) rfl
  · rw [hother]
    rintro rfl
    exact hkey l (by simp) hlands

theorem writesTo_write (d : Disk) (mode : WriteMode) (l : Location) (bytes : ByteArray) :
    WritesTo mode [l] d (d.write mode l bytes).2 := by
  have hmade := writesTo_makeDirectory mode [l] d l
  rw [write]
  generalize d.makeDirectory l.parent = made at hmade
  obtain ⟨result, made⟩ := made
  dsimp only at hmade ⊢
  split
  · exact hmade
  · split
    · exact hmade
    · rename_i key htarget
      exact hmade.trans (writesTo_put htarget bytes) (d.untemporary_singleton l)

theorem writesTo_save (d : Disk) (mode : WriteMode) (l : Location) (content : String) :
    WritesTo mode [l] d (d.save mode l content).2 := by
  rw [save]
  split
  · exact .refl _ _ _
  · dsimp only
    split
    · exact writesTo_write d mode l content.toUTF8
    · exact .refl _ _ _

theorem writesTo_saveTwin (d : Disk) (mode : WriteMode) (l : Location) (content : Twin String) :
    WritesTo mode [l] d (d.saveTwin mode l content).2 := by
  rw [saveTwin]
  split
  · rw [refuse]
    split
    · exact .refl _ _ _
    · exact writesTo_makeDirectory _ _ d l
  · exact writesTo_save d mode l _

end WritesTo

end DartScaffold.Disk
