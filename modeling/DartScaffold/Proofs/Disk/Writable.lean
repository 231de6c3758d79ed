import DartScaffold.Proofs.Disk.TextFile

/-!
When writing succeeds. The directories that lead to the file are there or can be made, its name is
short enough for the way it is written, and no directory stands in its place. A disk on which a file
is writable stays such a disk when the file is written, so any number of calls succeed.
-/

namespace DartScaffold.Disk

/-! ### Directories that are made already -/

/-- The names lead from `here` over directories that exist. -/
inductive Way (d : Disk) : Key → List String → Prop where
  | nil {here : Key} : Way d here []
  | up {here : Key} {names : List String} (h : Way d here.dropLast names) :
      Way d here (".." :: names)
  | down {here : Key} {name : String} {names : List String} (hname : name ≠ "..")
      (hlength : ¬ nameLimit < name.utf8ByteSize)
      (hentry : d.entry? (here ++ [name]) = some .directory) (h : Way d (here ++ [name]) names) :
      Way d here (name :: names)

theorem Way.makeWay {d : Disk} {here : Key} {names : List String} (h : d.Way here names) :
    d.makeWay here names = (.ok (), d) := by
  induction h with
  | nil => rfl
  | up _ ih => simpa [Disk.makeWay] using ih
  | down hname hlength hentry _ ih => simpa [Disk.makeWay, hname, hlength, hentry] using ih

/-- Making a way succeeds only by making it. -/
theorem way_of_makeWay {d e : Disk} {here : Key} {names : List String}
    (h : (d.makeWay here names).1 = .ok ()) (he : (d.makeWay here names).2.Extends e) :
    e.Way here names := by
  induction names generalizing d here with
  | nil => exact .nil
  | cons name names ih =>
      rw [Disk.makeWay] at h he
      by_cases hname : name = ".."
      · subst hname
        exact .up (ih h he)
      · rw [if_neg hname] at h he
        by_cases hlength : nameLimit < name.utf8ByteSize
        · rw [if_pos hlength] at h
          contradiction
        · rw [if_neg hlength] at h he
          dsimp only at h he
          split at h
          · rename_i hentry
            simp only [hentry] at he
            refine .down hname hlength ?_ (ih h he)
            exact he.entries _ _ ((extends_makeWay d _ _).entries _ _ hentry)
          · contradiction
          · -- the directory was made here, and whatever is made later leaves it
            rename_i hentry
            simp only [hentry] at he
            refine .down hname hlength ?_ (ih h he)
            refine he.entries _ _ ((extends_makeWay _ _ _).entries _ _ ?_)
            exact entry?_put_self (by simp) d .directory

/-- A file that is put where no directory is leaves the way open. -/
theorem Way.put {d : Disk} {here : Key} {names : List String} (h : d.Way here names) {key : Key}
    (hkey : d.entry? key ≠ some .directory) (bytes : ByteArray) :
    (d.put key (.file bytes)).Way here names := by
  induction h with
  | nil => exact .nil
  | up _ ih => exact .up ih
  | @down here name names hname hlength hentry _ ih =>
      refine .down hname hlength ?_ ih
      rw [entry?_put_of_ne ?_, hentry]
      rintro rfl
      exact hkey hentry

theorem makeDirectory_fst_eq_ok {d : Disk} {l : Location} (h : (d.makeDirectory l).1 = .ok ()) :
    isOverlong l = false ∧ (d.makeDirectory l).2.Way (d.start l) l.parts := by
  rw [makeDirectory] at h ⊢
  split at h
  · contradiction
  · rename_i hlong
    refine ⟨by simpa using hlong, ?_⟩
    rw [if_neg hlong]
    refine way_of_makeWay (d := d) ?_ (Extends.refl _)
    cases hmade : (d.makeWay (d.start l) l.parts).1 with
    | ok _ => rfl
    | error cause => simp [hmade] at h

theorem Way.makeDirectory {d : Disk} {l : Location} (hlong : isOverlong l = false)
    (h : d.Way (d.start l) l.parts) : d.makeDirectory l = (.ok (), d) := by
  simp [Disk.makeDirectory, hlong, h.makeWay]

/-! ### Writable files -/

/-- The file at `l` can be written. -/
structure Writable (d : Disk) (mode : WriteMode) (l : Location) : Prop where
  made : (d.makeDirectory l.parent).1 = .ok ()
  target : (d.makeDirectory l.parent).2.target mode l = .ok (d.absoluteKey l)
  vacant : (d.makeDirectory l.parent).2.Vacant l

theorem target_put {d : Disk} {mode : WriteMode} {l : Location} {key : Key} {bytes : ByteArray}
    (h : d.target mode l = .ok key) (hlocate : d.locate l = .ok key)
    (hkey : d.entry? key ≠ some .directory) :
    (d.put key (.file bytes)).target mode l = .ok key := by
  have hne : key ≠ [] := by
    rintro rfl
    exact hkey rfl
  have hlocate' := locate_put hlocate hkey bytes
  have hentry := entry?_put_self hne d (.file bytes)
  cases mode with
  | inPlace => simp [target, hlocate', hentry, bind, Except.bind]
  | replace =>
      simp only [target, bind, Except.bind] at h ⊢
      cases hparent : d.locate l.parent with
      | error cause => simp [hparent] at h
      | ok parent =>
          rw [hparent] at h
          rw [locate_put hparent hkey bytes]
          dsimp only at h ⊢
          split at h
          · contradiction
          · rename_i hshort
            simp [hlocate', hentry, hshort]

section Write

variable {d : Disk} {mode : WriteMode} {l : Location}

/-- Where the directories are there already, making them does nothing. -/
theorem writable_of_way (hlong : isOverlong l.parent = false)
    (hway : d.Way (d.start l.parent) l.parent.parts)
    (htarget : d.target mode l = .ok (d.absoluteKey l)) (hvacant : d.Vacant l) :
    d.Writable mode l := by
  have hmade := Way.makeDirectory hlong hway
  refine ⟨by rw [hmade], ?_, ?_⟩
  · rw [hmade]
    exact htarget
  · rw [hmade]
    exact hvacant

theorem locate_of_target (htarget : d.target mode l = .ok (d.absoluteKey l)) :
    d.locate l = .ok (d.absoluteKey l) := by
  obtain ⟨found, hlocate, -⟩ := target_eq_ok htarget
  rw [hlocate, ← locate_eq_ok hlocate]

/-- The file that was put where its bytes go can be written again. -/
theorem writable_put (hlong : isOverlong l.parent = false)
    (hway : d.Way (d.start l.parent) l.parent.parts)
    (htarget : d.target mode l = .ok (d.absoluteKey l)) (hvacant : d.Vacant l)
    (bytes : ByteArray) : (d.put (d.absoluteKey l) (.file bytes)).Writable mode l := by
  have hkey : (d.put (d.absoluteKey l) (.file bytes)).absoluteKey l = d.absoluteKey l :=
    absoluteKey_of_home (home_put d _ _) l
  have hne : d.absoluteKey l ≠ [] := by
    intro hnil
    rw [Vacant, hnil] at hvacant
    exact hvacant rfl
  refine writable_of_way hlong (hway.put hvacant bytes) ?_ ?_
  · rw [hkey]
    exact target_put htarget (locate_of_target htarget) hvacant
  · rw [Vacant, hkey, entry?_put_self hne]
    simp

theorem Writable.write_eq (h : d.Writable mode l) (bytes : ByteArray) :
    d.write mode l bytes =
      (.ok (), (d.makeDirectory l.parent).2.put (d.absoluteKey l) (.file bytes)) := by
  obtain ⟨hmade, htarget, -⟩ := h
  obtain ⟨result, hresult⟩ : ∃ result, d.makeDirectory l.parent = result := ⟨_, rfl⟩
  rw [hresult] at hmade htarget
  rw [Disk.write, hresult]
  dsimp only
  rw [hmade]
  simp only [htarget]

theorem Writable.write (h : d.Writable mode l) (bytes : ByteArray) :
    ∃ e, d.write mode l bytes = (.ok (), e) ∧ e.Writable mode l ∧
      e.entryAt l = .ok (.file bytes) := by
  obtain ⟨hlong, hway⟩ := makeDirectory_fst_eq_ok h.made
  have hhome := (extends_makeDirectory d l.parent).home
  have hkey := absoluteKey_of_home hhome l
  have hstart : (d.makeDirectory l.parent).2.start l.parent = d.start l.parent := by
    simp [start, hhome]
  have htarget := h.target
  rw [← hkey] at htarget
  rw [← hstart] at hway
  refine ⟨_, h.write_eq bytes, ?_, ?_⟩
  · rw [← hkey]
    exact writable_put hlong hway htarget h.vacant bytes
  · rw [← hkey]
    exact entryAt_put (locate_of_target htarget) h.vacant

/-- A text that is saved where the file is writable is what the file then reads as. -/
theorem Writable.save (h : d.Writable mode l) {existing : Option String}
    (hexisting : d.textIfFile l = .ok existing) {content : String}
    (hcontent : '\r' ∉ content.toList) :
    ∃ saved e, d.save mode l content = (.ok saved, e) ∧ e.Writable mode l ∧
      e.textIfFile l = .ok (some content) := by
  by_cases hsame : existing = some content
  · rw [hsame] at hexisting
    obtain ⟨saved, hsave, -⟩ := save_of_same hexisting mode
    exact ⟨saved, d, hsave, h, hexisting⟩
  · obtain ⟨e, hwrite, hwritable, hentry⟩ := h.write content.toUTF8
    have hchanged : (existing != some content) = true := by simpa using hsame
    refine ⟨⟨l.toString, content, existing != some content, existing.isNone⟩, e, ?_, hwritable, ?_⟩
    · simp only [Disk.save, hexisting, hchanged, if_true, writeText, hwrite]
      rfl
    · rw [textIfFile_of_entryAt hentry (fromUTF8?_toUTF8 content),
        Text.normalizeNewlines_of_not_mem hcontent, String.ofList_toList]

end Write

end DartScaffold.Disk
