import DartScaffold.Proofs.Disk.Saving

/-!
Disks that take what is written to them. Where the files at some places can be written, and those that
are there hold text, a save to one of them succeeds, and the places are as good as before. So no save
fails for an earlier one.
-/

namespace DartScaffold.Disk

variable {d e : Disk} {mode : WriteMode} {places : List Location} {l : Location}

theorem Frame.isDirectory (hframe : Frame places d e) (h : d.isDirectory l = .ok true) :
    e.isDirectory l = .ok true := by
  obtain ⟨key, hlocate, hentry⟩ : ∃ key, d.locate l = .ok key ∧ d.entry? key = some .directory := by
    rw [Disk.isDirectory, holds] at h
    split at h
    · rename_i entry hat
      cases entry with
      | file bytes => simp at h
      | directory =>
          have hfound := entry?_of_entryAt hat
          cases hlocate : d.locate l with
          | error cause => simp [entryAt, hlocate, bind, Except.bind] at hat
          | ok key => exact ⟨key, rfl, locate_eq_ok hlocate ▸ hfound⟩
    · contradiction
    · simp at h
  have hlocate' := locate_of_directories hframe.home hframe.directory hlocate
  have hat : e.entryAt l = .ok .directory := by
    simp [entryAt, hlocate', hframe.directory key hentry, bind, Except.bind]
  simp [Disk.isDirectory, holds, hat]

/-! ### Reading at the places -/

theorem short_of_follow {here key : Key} {names : List String} (h : d.follow here names = .ok key) :
    ∀ name ∈ names, ¬ nameLimit < name.utf8ByteSize := by
  induction names generalizing here with
  | nil => exact List.forall_mem_nil _
  | cons name names ih =>
      rw [follow] at h
      split at h
      · contradiction
      · contradiction
      · split at h
        · rename_i hname
          subst hname
          exact List.forall_mem_cons.mpr ⟨by decide, ih h⟩
        · split at h
          · contradiction
          · rename_i hshort
            exact List.forall_mem_cons.mpr ⟨hshort, ih h⟩

/-- Where a file can be written, its name and its location are short enough for the disk. -/
theorem Writable.locate_ne_nameTooLong (h : d.Writable mode l) : d.locate l ≠ .error .nameTooLong := by
  obtain ⟨found, hlocate, -⟩ := target_eq_ok h.target
  rw [locate] at hlocate ⊢
  split at hlocate
  · contradiction
  · rename_i hlong
    rw [if_neg hlong]
    exact follow_ne_nameTooLong (short_of_follow hlocate)

/-- The file that the names of `l` spell is a text, if there is one. -/
def HoldsText (d : Disk) (l : Location) : Prop :=
  ∀ bytes, d.entry? (d.absoluteKey l) = some (.file bytes) → (String.fromUTF8? bytes).isSome = true

theorem Writable.textIfFile_eq_ok (h : d.Writable mode l) (htext : d.HoldsText l) :
    ∃ existing, d.textIfFile l = .ok existing := by
  cases hat : d.entryAt l with
  | ok entry =>
      cases entry with
      | directory =>
          exact ⟨none, by simp [textIfFile, isFile, holds, hat, bind, Except.bind, pure, Except.pure]⟩
      | file bytes =>
          obtain ⟨text, hbytes⟩ := Option.isSome_iff_exists.mp (htext bytes (entry?_of_entryAt hat))
          exact ⟨_, textIfFile_of_entryAt hat hbytes⟩
  | error cause =>
      refine ⟨none, ?_⟩
      cases cause with
      | nameTooLong =>
          refine absurd ?_ h.locate_ne_nameTooLong
          cases hlocate : d.locate l with
          | error cause =>
              simp only [entryAt, hlocate, bind, Except.bind] at hat
              rw [Except.error.inj hat]
          | ok key =>
              simp only [entryAt, hlocate, bind, Except.bind] at hat
              split at hat <;> simp at hat
      | _ => simp [textIfFile, isFile, holds, hat, bind, Except.bind, pure, Except.pure]

/-! ### Writing to the places -/

/-- Files can be written at the places, which are out of each other's way, and those that are there hold
text. -/
structure Receptive (d : Disk) (mode : WriteMode) (places : List Location) : Prop where
  apart : d.Apart places
  writable : ∀ l ∈ places, d.Writable mode l
  text : ∀ l ∈ places, d.HoldsText l

theorem Receptive.textIfFile_eq_ok (h : d.Receptive mode places) (hl : l ∈ places) :
    ∃ existing, d.textIfFile l = .ok existing :=
  (h.writable l hl).textIfFile_eq_ok (h.text l hl)

/-- A text that is written leaves text wherever there was text. -/
theorem HoldsText.write {other : Location} (h : d.HoldsText other) (hwritable : d.Writable mode l)
    (content : String) : HoldsText (d.write mode l content.toUTF8).2 other := by
  rw [hwritable.write_eq]
  have hhome := (extends_makeDirectory d l.parent).home
  have hne : d.absoluteKey l ≠ [] := by
    intro hroot
    apply hwritable.vacant
    rw [absoluteKey_of_home hhome, hroot]
    rfl
  intro bytes hbytes
  rw [absoluteKey_of_home (home_put _ _ _), absoluteKey_of_home hhome] at hbytes
  by_cases hkey : d.absoluteKey other = d.absoluteKey l
  · rw [hkey, entry?_put_self hne] at hbytes
    obtain rfl : content.toUTF8 = bytes := by simpa using hbytes
    rw [fromUTF8?_toUTF8]
    rfl
  · rw [entry?_put_of_ne hkey] at hbytes
    exact h bytes ((entry?_makeDirectory hbytes).resolve_right fun hmade => nomatch hmade.1)

/-- A text can be saved at each of the places, and after it at each of them again. -/
theorem Receptive.save (h : d.Receptive mode places) (hl : l ∈ places) (content : String) :
    ∃ saved, (d.save mode l content).1 = .ok saved ∧
      Receptive (d.save mode l content).2 mode places := by
  have hframe : Frame places d (d.save mode l content).2 :=
    (frame_save (h.apart.singleton hl) mode content).mono (by simpa using hl)
  obtain ⟨existing, hexisting⟩ := h.textIfFile_eq_ok hl
  have hwritable := h.writable l hl
  obtain ⟨saved, hsaved⟩ : ∃ saved, (d.save mode l content).1 = .ok saved := by
    rw [Disk.save, hexisting]
    dsimp only
    split
    · rw [writeText, hwritable.write_eq]
      exact ⟨_, rfl⟩
    · exact ⟨_, rfl⟩
  refine ⟨saved, hsaved, h.apart.frame hframe,
    fun other hother => (h.writable other hother).frame h.apart hframe hother, fun other hother => ?_⟩
  have hsave : d.save mode l content = (.ok saved, (d.save mode l content).2) := Prod.ext hsaved rfl
  rcases save_eq_ok hsave with ⟨hsame, -⟩ | hwritten
  · rw [hsame]
    exact h.text other hother
  · have hkept := (h.text other hother).write hwritable content
    rwa [hwritten] at hkept

end DartScaffold.Disk
