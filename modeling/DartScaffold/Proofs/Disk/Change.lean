import DartScaffold.Proofs.Disk.Writable

/-!
How exactly a save tells whether it changes a file. It compares texts as reading gives them, with every
kind of line end turned into LF, and writes bytes. So the bytes are told apart exactly as long as no
carriage return is about, neither in the content nor in the file: with one in the file, a content that
differs in its line ends alone passes for what is there, and one in the content is told as a change
each time (`saveTwin_detects`).
-/

namespace DartScaffold.Disk

/-- The bytes of the file at a location, if there is one. -/
def bytesAt (d : Disk) (l : Location) : Option ByteArray :=
  match d.entryAt l with
  | .ok (.file bytes) => some bytes
  | _ => none

section Bytes

variable {d : Disk} {l : Location}

theorem toUTF8_of_fromUTF8? {bytes : ByteArray} {text : String}
    (h : String.fromUTF8? bytes = some text) : text.toUTF8 = bytes := by
  rw [String.fromUTF8?] at h
  split at h
  · obtain rfl := Option.some.inj h
    rfl
  · contradiction

theorem bytesAt_eq_some_iff {bytes : ByteArray} :
    d.bytesAt l = some bytes ↔ d.entryAt l = .ok (.file bytes) := by
  rw [bytesAt]
  split
  · rename_i found hfound
    rw [hfound, Option.some.injEq]
    exact ⟨fun h => h ▸ rfl, fun h => Entry.file.inj (Except.ok.inj h)⟩
  · rename_i hnone
    exact iff_of_false nofun (hnone bytes)

/-- A file that can be read holds the encoding of a text, and reads as that text with its line ends
turned into LF. -/
theorem textIfFile_eq_some_iff {existing : Option String} (hread : d.textIfFile l = .ok existing)
    {text : String} : existing = some text ↔
      ∃ raw : String, d.bytesAt l = some raw.toUTF8 ∧ Text.normalizeNewlines raw.toList = text.toList := by
  constructor
  · rintro rfl
    obtain ⟨bytes, raw, hentry, hraw, rfl⟩ := textIfFile_eq_some hread
    refine ⟨raw, ?_, String.toList_ofList.symm⟩
    rw [toUTF8_of_fromUTF8? hraw, bytesAt_eq_some_iff, hentry]
  · rintro ⟨raw, hraw, htext⟩
    have hsame := textIfFile_of_entryAt (bytesAt_eq_some_iff.mp hraw) (fromUTF8?_toUTF8 raw)
    rw [htext, String.ofList_toList] at hsame
    exact Except.ok.inj (hread.symm.trans hsame)

theorem eq_of_toUTF8 {text other : String} (h : text.toUTF8 = other.toUTF8) : text = other := by
  have hread := fromUTF8?_toUTF8 text
  rw [h, fromUTF8?_toUTF8] at hread
  exact (Option.some.inj hread).symm

end Bytes

section Save

variable {d e : Disk} {mode : WriteMode} {l : Location} {content : String} {saved : Saved}
  {existing : Option String}

/-- A write that succeeds and leaves no directory at its place can be made, and made again. -/
theorem writable_of_write {bytes : ByteArray} (h : d.write mode l bytes = (.ok (), e))
    (he : e.Vacant l) : d.Writable mode l := by
  rw [write] at h
  have hhome := (extends_makeDirectory d l.parent).home
  cases hmade : d.makeDirectory l.parent with
  | mk made d' =>
      rw [hmade] at h hhome
      dsimp only at h hhome
      split at h
      · exact absurd (congrArg Prod.fst h) (by simp)
      · split at h
        · exact absurd (congrArg Prod.fst h) (by simp)
        · rename_i key htarget
          obtain rfl := congrArg Prod.snd h
          obtain ⟨found, hlocate, hcases⟩ := target_eq_ok htarget
          obtain rfl := locate_eq_ok hlocate
          rcases hcases with ⟨rfl, hvacant⟩ | ⟨rfl, hdirectory, -⟩
          · refine ⟨by rw [hmade], ?_, by rwa [hmade]⟩
            rw [hmade, htarget, absoluteKey_of_home hhome]
          · -- the bytes went into the directory that stands there
            refine absurd ?_ he
            rw [absoluteKey_of_home (home_put d' _ _), entry?_put_of_ne (by simp), hdirectory]

/-- All that a save can do where the file can be read. -/
theorem save_cases {result : Except Failure Saved} (hread : d.textIfFile l = .ok existing)
    (h : d.save mode l content = (result, e)) :
    (existing = some content ∧ e = d ∧ ∃ saved, result = .ok saved ∧ saved.changed = false) ∨
    (existing ≠ some content ∧ d.write mode l content.toUTF8 = (.ok (), e) ∧
      ∃ saved, result = .ok saved ∧ saved.changed = true) ∨
    (existing ≠ some content ∧ ∃ cause, d.write mode l content.toUTF8 = (.error cause, e) ∧
      result = .error (.disk cause)) := by
  rw [save, hread] at h
  dsimp only at h
  split at h
  · rename_i hchanged
    have hne : existing ≠ some content := by simpa using hchanged
    obtain ⟨⟨written, made⟩, hwritten⟩ : ∃ result, d.write mode l content.toUTF8 = result := ⟨_, rfl⟩
    rw [writeText, hwritten] at h
    obtain rfl : made = e := congrArg Prod.snd h
    cases written with
    | ok _ => exact .inr (.inl ⟨hne, hwritten, _, (congrArg Prod.fst h).symm, hchanged⟩)
    | error cause => exact .inr (.inr ⟨hne, cause, hwritten, (congrArg Prod.fst h).symm⟩)
  · rename_i hsame
    have hcontent : existing = some content := by simpa using hsame
    exact .inl ⟨hcontent, (congrArg Prod.snd h).symm, _, (congrArg Prod.fst h).symm,
      Bool.eq_false_iff.mpr hsame⟩

theorem changed_of_save (hread : d.textIfFile l = .ok existing)
    (h : d.save mode l content = (.ok saved, e)) :
    saved.changed = true ↔ existing ≠ some content := by
  rcases save_cases hread h with ⟨hsame, -, _, hsaved, hchanged⟩ |
    ⟨hne, -, _, hsaved, hchanged⟩ | ⟨-, _, -, hfailed⟩
  · obtain rfl := Except.ok.inj hsaved
    simp [hchanged, hsame]
  · obtain rfl := Except.ok.inj hsaved
    simp [hchanged, hne]
  · contradiction

/-- A save that fails is one that could not write. -/
theorem save_eq_error {failure : Failure} (hread : d.textIfFile l = .ok existing)
    (h : d.save mode l content = (.error failure, e)) :
    ∃ cause, failure = .disk cause ∧ d.write mode l content.toUTF8 = (.error cause, e) := by
  rcases save_cases hread h with ⟨-, -, _, hsaved, -⟩ | ⟨-, -, _, hsaved, -⟩ |
    ⟨-, cause, hwritten, hfailed⟩
  · contradiction
  · contradiction
  · exact ⟨cause, Except.error.inj hfailed, hwritten⟩

/-- Once no directory stands there, the file holds what was written. -/
theorem bytesAt_of_save_changed (hread : d.textIfFile l = .ok existing)
    (h : d.save mode l content = (.ok saved, e)) (hchanged : saved.changed = true)
    (he : e.Vacant l) : e.bytesAt l = some content.toUTF8 := by
  have hne := (changed_of_save hread h).mp hchanged
  rcases save_cases hread h with ⟨hsame, -⟩ | ⟨-, hwritten, -⟩ | ⟨-, _, -, hfailed⟩
  · exact absurd hsame hne
  · exact bytesAt_eq_some_iff.mpr (write_reads hwritten he)
  · contradiction

theorem eq_of_save_unchanged (hread : d.textIfFile l = .ok existing)
    (h : d.save mode l content = (.ok saved, e)) (hchanged : saved.changed = false) : e = d := by
  rcases save_cases hread h with ⟨-, hkept, -⟩ | ⟨hne, -⟩ | ⟨hne, -⟩
  · exact hkept
  all_goals exact absurd ((changed_of_save hread h).mpr hne) (by simp [hchanged])

/-- A save succeeds where the file is writable. -/
theorem Writable.exists_save (hw : d.Writable mode l) (hread : d.textIfFile l = .ok existing)
    (content : String) : ∃ saved e, d.save mode l content = (.ok saved, e) ∧ e.Vacant l := by
  obtain ⟨e, hwritten, -, hentry⟩ := hw.write content.toUTF8
  obtain ⟨⟨result, f⟩, hsave⟩ : ∃ result, d.save mode l content = result := ⟨_, rfl⟩
  rcases save_cases hread hsave with ⟨rfl, rfl, saved, rfl, -⟩ | ⟨-, hwritten', saved, rfl, -⟩ |
    ⟨-, cause, hfailed, -⟩
  · exact ⟨saved, f, hsave, vacant_of_textIfFile hread⟩
  · obtain rfl : e = f := congrArg Prod.snd (hwritten.symm.trans hwritten')
    refine ⟨saved, e, hsave, ?_⟩
    rw [Vacant, entry?_of_entryAt hentry]
    simp
  · exact absurd (congrArg Prod.fst (hwritten.symm.trans hfailed)) (by simp)

/-- The next save of the same content finds it if no carriage return was lost on the way, and else
writes the same bytes again. -/
theorem save_again (h : d.save mode l content = (.ok saved, e)) (he : e.Vacant l) :
    ∃ again f, e.save mode l content = (.ok again, f) ∧
      (again.changed = true ↔ '\r' ∈ content.toList) ∧ (again.changed = false → f = e) ∧
      f.bytesAt l = e.bytesAt l := by
  by_cases hcontent : '\r' ∈ content.toList
  · rcases save_eq_ok h with ⟨rfl, hsame⟩ | hwritten
    · exact absurd hcontent (carriage_not_mem_of_textIfFile hsame)
    · have hentry := write_reads hwritten he
      have hfound := textIfFile_of_entryAt hentry (fromUTF8?_toUTF8 content)
      have hlost : some (String.ofList (Text.normalizeNewlines content.toList)) ≠ some content := by
        intro hsame
        rw [hsame] at hfound
        exact carriage_not_mem_of_textIfFile hfound hcontent
      obtain ⟨e', hwritten', hwritable, -⟩ := (writable_of_write hwritten he).write content.toUTF8
      obtain rfl : e = e' := congrArg Prod.snd (hwritten.symm.trans hwritten')
      obtain ⟨again, f, hagain, hf⟩ := hwritable.exists_save hfound content
      have hchanged := (changed_of_save hfound hagain).mpr hlost
      refine ⟨again, f, hagain, iff_of_true hchanged hcontent, ?_, ?_⟩
      · rw [hchanged]
        nofun
      · rw [bytesAt_of_save_changed hfound hagain hchanged hf, bytesAt_eq_some_iff.mpr hentry]
  · obtain ⟨again, hagain, hunchanged⟩ := save_of_same (save_reads h he hcontent) mode
    refine ⟨again, e, hagain, ?_, fun _ => rfl, rfl⟩
    rw [hunchanged]
    exact iff_of_false nofun hcontent

end Save

/-! ### What is told -/

/-- What is told of a save, and what it leaves. -/
structure Detects (d e : Disk) (mode : WriteMode) (l : Location) (content : String)
    (saved : Saved) : Prop where
  /-- Unchanged is what reads as the content. -/
  unchanged : saved.changed = false ↔ ∃ raw : String, d.bytesAt l = some raw.toUTF8 ∧
    Text.normalizeNewlines raw.toList = content.toList
  kept : saved.changed = false → e = d
  written : saved.changed = true → e.Vacant l → e.bytesAt l = some content.toUTF8
  again : e.Vacant l → ∃ again f, e.save mode l content = (.ok again, f) ∧
    (again.changed = true ↔ '\r' ∈ content.toList) ∧ (again.changed = false → f = e) ∧
    f.bytesAt l = e.bytesAt l
  /-- Without carriage returns, unchanged is what has the bytes of the content. -/
  plain : '\r' ∉ content.toList →
    (∀ raw : String, d.bytesAt l = some raw.toUTF8 → '\r' ∉ raw.toList) → e.Vacant l →
    e.bytesAt l = some content.toUTF8 ∧
      (saved.changed = false ↔ d.bytesAt l = some content.toUTF8)

section Told

variable {d e : Disk} {mode : WriteMode} {l : Location} {existing : Option String}

theorem detects_of_save {content : String} {saved : Saved} (hread : d.textIfFile l = .ok existing)
    (h : d.save mode l content = (.ok saved, e)) : Detects d e mode l content saved := by
  have hunchanged : saved.changed = false ↔ ∃ raw : String, d.bytesAt l = some raw.toUTF8 ∧
      Text.normalizeNewlines raw.toList = content.toList := by
    rw [← textIfFile_eq_some_iff hread, ← Bool.not_eq_true, changed_of_save hread h,
      Classical.not_not]
  have hkept := eq_of_save_unchanged hread h
  have hwritten := bytesAt_of_save_changed hread h
  refine ⟨hunchanged, hkept, hwritten, save_again h, fun hcontent hprior he => ?_⟩
  have hsame : saved.changed = false ↔ d.bytesAt l = some content.toUTF8 := by
    rw [hunchanged]
    constructor
    · rintro ⟨raw, hraw, htext⟩
      rw [Text.normalizeNewlines_of_not_mem (hprior raw hraw)] at htext
      rw [hraw, String.toList_inj.mp htext]
    · intro hbytes
      exact ⟨content, hbytes, Text.normalizeNewlines_of_not_mem hcontent⟩
  refine ⟨?_, hsame⟩
  cases hchanged : saved.changed with
  | true => exact hwritten hchanged he
  | false => rw [hkept hchanged, hsame.mp hchanged]

/-- Of any content and any file that can be read: a save that succeeds detects changes as said, one
that fails could not write or was given no text that has an encoding, and one that can write
succeeds. -/
theorem saveTwin_detects (hread : d.textIfFile l = .ok existing) (mode : WriteMode)
    (content : Twin String) :
    (∀ saved e, d.saveTwin mode l content = (.ok saved, e) →
      content.surrogates? = none ∧ Detects d e mode l content.first saved) ∧
    (∀ failure e, d.saveTwin mode l content = (.error failure, e) →
      content.surrogates? ≠ none ∨
        ∃ cause, failure = .disk cause ∧ d.write mode l content.first.toUTF8 = (.error cause, e)) ∧
    (content.surrogates? = none → d.Writable mode l →
      ∃ saved e, d.saveTwin mode l content = (.ok saved, e) ∧ e.Vacant l) := by
  rw [saveTwin]
  cases content.surrogates? with
  | none =>
      refine ⟨fun saved e h => ⟨rfl, detects_of_save hread h⟩, fun failure e h => .inr ?_,
        fun _ hw => hw.exists_save hread _⟩
      exact save_eq_error hread h
  | some run =>
      refine ⟨fun saved e h => absurd (congrArg Prod.fst h) ?_, fun _ _ _ => .inl nofun, nofun⟩
      simp only [refuse, hread]
      cases (d.makeDirectory l.parent).1 <;> exact nofun

end Told

/-! ### A file with other line ends -/

def notesPlace : Location := { parts := ["notes.dart"] }

/-- A file that was written where lines end with CR LF. -/
def notesDisk : Disk :=
  (Disk.emptyAt []).put ["notes.dart"] (.file "a\r\nb\n".toUTF8)

theorem entryAt_notesDisk : notesDisk.entryAt notesPlace = .ok (.file "a\r\nb\n".toUTF8) := by
  rfl

theorem textIfFile_notesDisk : notesDisk.textIfFile notesPlace = .ok (some "a\nb\n") := by
  rw [textIfFile_of_entryAt entryAt_notesDisk (fromUTF8?_toUTF8 _)]
  rfl

theorem saveTwin_detects_notes : notesDisk.textIfFile notesPlace = .ok (some "a\nb\n") ∧
    ∀ saved e, notesDisk.saveTwin .replace notesPlace (.same "b\n") = (.ok saved, e) →
      Detects notesDisk e .replace notesPlace "b\n" saved :=
  ⟨textIfFile_notesDisk, fun saved e h =>
    ((saveTwin_detects textIfFile_notesDisk .replace (.same "b\n")).1 saved e h).2⟩

/-- The lines with LF are told as unchanged, and the file keeps its bytes. -/
theorem save_leaves_line_ends : ∃ saved : Saved,
    notesDisk.saveTwin .replace notesPlace (.same "a\nb\n") = (.ok saved, notesDisk) ∧
      saved.changed = false ∧ notesDisk.bytesAt notesPlace ≠ some "a\nb\n".toUTF8 := by
  obtain ⟨saved, hsave, hchanged⟩ := save_of_same textIfFile_notesDisk .replace
  refine ⟨saved, hsave, hchanged, fun hbytes => ?_⟩
  have hsame := entryAt_notesDisk.symm.trans (bytesAt_eq_some_iff.mp hbytes)
  have htext := eq_of_toUTF8 (Entry.file.inj (Except.ok.inj hsame))
  exact absurd htext (by decide)

end DartScaffold.Disk
