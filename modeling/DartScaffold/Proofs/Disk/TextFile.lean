import DartScaffold.Disk.TextFile
import DartScaffold.Proofs.Disk.Basic
import DartScaffold.Proofs.Text.Lines

/-!
Text files are read as they were saved: what was written and has no carriage returns is what a later
reading finds, as long as no directory stands at the location. Saving what a file already reads as
leaves the disk alone.
-/

namespace DartScaffold.Disk

theorem fromUTF8?_toUTF8 (s : String) : String.fromUTF8? s.toUTF8 = some s := by
  have hvalid : s.toUTF8.IsValidUTF8 := s.isValidUTF8
  rw [String.fromUTF8?, dif_pos hvalid]
  rfl

theorem entry?_of_entryAt {d : Disk} {l : Location} {entry : Entry}
    (h : d.entryAt l = .ok entry) : d.entry? (d.absoluteKey l) = some entry := by
  simp only [entryAt, bind, Except.bind] at h
  cases hlocate : d.locate l with
  | error cause => simp [hlocate] at h
  | ok key =>
      rw [hlocate] at h
      dsimp only at h
      rw [← locate_eq_ok hlocate]
      split at h
      · rename_i found hfound
        rw [hfound, Except.ok.inj h]
      · contradiction

/-! ### Reading -/

theorem textIfFile_of_entryAt {d : Disk} {l : Location} {bytes : ByteArray} {text : String}
    (h : d.entryAt l = .ok (.file bytes)) (hbytes : String.fromUTF8? bytes = some text) :
    d.textIfFile l = .ok (some (String.ofList (Text.normalizeNewlines text.toList))) := by
  simp [textIfFile, isFile, holds, readText, read, h, hbytes, bind, Except.bind,
    pure, Except.pure]

theorem textIfFile_eq_some {d : Disk} {l : Location} {text : String}
    (h : d.textIfFile l = .ok (some text)) :
    ∃ bytes raw, d.entryAt l = .ok (.file bytes) ∧ String.fromUTF8? bytes = some raw ∧
      text = String.ofList (Text.normalizeNewlines raw.toList) := by
  cases hentry : d.entryAt l with
  | error cause =>
      cases cause <;> simp [textIfFile, isFile, holds, hentry, bind,
        Except.bind, pure, Except.pure] at h
  | ok entry =>
      cases entry with
      | directory =>
          simp [textIfFile, isFile, holds, hentry, bind, Except.bind, pure,
            Except.pure] at h
      | file bytes =>
          cases hraw : String.fromUTF8? bytes with
          | none =>
              simp [textIfFile, isFile, holds, readText, read, hentry, hraw, bind,
                Except.bind, throw, throwThe, MonadExceptOf.throw] at h
          | some raw =>
              rw [textIfFile_of_entryAt hentry hraw] at h
              exact ⟨bytes, raw, rfl, hraw, by simpa [eq_comm] using h⟩

theorem carriage_not_mem_of_textIfFile {d : Disk} {l : Location} {text : String}
    (h : d.textIfFile l = .ok (some text)) : '\r' ∉ text.toList := by
  obtain ⟨-, raw, -, -, rfl⟩ := textIfFile_eq_some h
  rw [String.toList_ofList]
  exact Text.carriage_not_mem_normalizeNewlines _

/-! ### Saving -/

/-- No directory stands at the location. -/
def Vacant (d : Disk) (l : Location) : Prop :=
  d.entry? (d.absoluteKey l) ≠ some .directory

theorem vacant_of_textIfFile {d : Disk} {l : Location} {text : String}
    (h : d.textIfFile l = .ok (some text)) : d.Vacant l := by
  obtain ⟨bytes, -, hentry, -⟩ := textIfFile_eq_some h
  rw [Vacant, entry?_of_entryAt hentry]
  simp

/-- Bytes that are written are found at their location. -/
theorem write_reads {d e : Disk} {mode : WriteMode} {l : Location} {bytes : ByteArray}
    (h : d.write mode l bytes = (.ok (), e)) (he : e.Vacant l) :
    e.entryAt l = .ok (.file bytes) := by
  obtain ⟨made, key, hmade, htarget, rfl⟩ := write_eq_ok h
  obtain ⟨found, hlocate, ⟨rfl, hfound⟩ | ⟨rfl, hfound, -⟩⟩ := target_eq_ok htarget
  · exact entryAt_put hlocate hfound
  · exfalso
    apply he
    have hkey :
        (made.put (found ++ [temporaryName l.name]) (.file bytes)).absoluteKey l = found := by
      rw [absoluteKey_of_home (home_put made _ _), locate_eq_ok hlocate]
    rw [hkey, entry?_put_of_ne (by simp), hfound]

theorem save_of_same {d : Disk} {l : Location} {content : String}
    (h : d.textIfFile l = .ok (some content)) (mode : WriteMode) :
    ∃ saved : Saved, d.save mode l content = (.ok saved, d) ∧ saved.changed = false := by
  simp [save, h]

theorem save_eq_ok {d e : Disk} {mode : WriteMode} {l : Location} {content : String}
    {saved : Saved} (h : d.save mode l content = (.ok saved, e)) :
    (e = d ∧ d.textIfFile l = .ok (some content)) ∨
      d.write mode l content.toUTF8 = (.ok (), e) := by
  rw [save] at h
  cases hexisting : d.textIfFile l with
  | error failure =>
      rw [hexisting] at h
      exact absurd (congrArg Prod.fst h) (by simp)
  | ok existing =>
      rw [hexisting] at h
      dsimp only at h
      split at h
      · obtain ⟨written, hwritten⟩ : ∃ written, d.write mode l content.toUTF8 = written := ⟨_, rfl⟩
        rw [writeText, hwritten] at h
        obtain ⟨result, made⟩ := written
        cases result with
        | error cause => exact absurd (congrArg Prod.fst h) (by simp [Except.map])
        | ok _ =>
            obtain rfl : made = e := congrArg Prod.snd h
            exact .inr hwritten
      · rename_i hsame
        have hcontent : existing = some content := by simpa using hsame
        exact .inl ⟨(congrArg Prod.snd h).symm, by rw [hcontent]⟩

/-- What was a file stays one. -/
theorem save_vacant_of_textIfFile {d e : Disk} {mode : WriteMode} {l : Location}
    {content text : String} {saved : Saved} (htext : d.textIfFile l = .ok (some text))
    (h : d.save mode l content = (.ok saved, e)) : e.Vacant l := by
  rcases save_eq_ok h with ⟨rfl, -⟩ | hwritten
  · exact vacant_of_textIfFile htext
  · obtain ⟨bytes, -, hentry, -⟩ := textIfFile_eq_some htext
    obtain ⟨made, key, hmade, htarget, rfl⟩ := write_eq_ok hwritten
    have hfile : made.entry? (made.absoluteKey l) = some (.file bytes) := by
      rw [absoluteKey_of_home hmade.home]
      exact hmade.entries _ _ (entry?_of_entryAt hentry)
    obtain ⟨found, hlocate, hcases⟩ := target_eq_ok htarget
    obtain rfl := locate_eq_ok hlocate
    rcases hcases with ⟨rfl, hfound⟩ | ⟨-, hfound⟩
    · rw [Vacant, absoluteKey_of_home (home_put made _ _), entry?_put]
      split
      · rename_i hnil
        rw [hnil] at hfound
        exact absurd rfl hfound
      · simp
    · simp [hfile] at hfound

/-- What is saved is what the file then reads as. -/
theorem save_reads {d e : Disk} {mode : WriteMode} {l : Location} {content : String}
    {saved : Saved} (h : d.save mode l content = (.ok saved, e)) (he : e.Vacant l)
    (hcontent : '\r' ∉ content.toList) : e.textIfFile l = .ok (some content) := by
  rcases save_eq_ok h with ⟨rfl, hsame⟩ | hwritten
  · exact hsame
  · rw [textIfFile_of_entryAt (write_reads hwritten he) (fromUTF8?_toUTF8 content),
      Text.normalizeNewlines_of_not_mem hcontent, String.ofList_toList]

end DartScaffold.Disk
