import DartScaffold.Disk.Basic

/-!
What writing a file does to a disk: entries that are there stay, directories stay directories, and
the file is found again under the same location unless a directory stands there.
-/

namespace DartScaffold.Disk

/-! ### Causes and what is made of them -/

section Results

variable {α ε ε' : Type}

@[simp] theorem mapError_ok (f : ε → ε') (a : α) :
    (Except.ok a : Except ε α).mapError f = .ok a := rfl

@[simp] theorem mapError_error (f : ε → ε') (e : ε) :
    (Except.error e : Except ε α).mapError f = .error (f e) := rfl

end Results

/-! ### Entries -/

theorem lookup_putEntry (key other : Key) (entry : Entry) (entries : List (Key × Entry)) :
    (putEntry key entry entries).lookup other =
      if other = key then some entry else entries.lookup other := by
  induction entries with
  | nil =>
      by_cases h : other = key
      · simp [putEntry, h]
      · have hbeq : (other == key) = false := by simpa using h
        simp [putEntry, List.lookup_cons, h, hbeq]
  | cons first entries ih =>
      obtain ⟨k, e⟩ := first
      rw [putEntry]
      by_cases hk : k = key
      · subst hk
        rw [if_pos rfl, List.lookup_cons, List.lookup_cons]
        by_cases h : other = k
        · simp [h]
        · have hbeq : (other == k) = false := by simpa using h
          simp [h, hbeq]
      · rw [if_neg hk, List.lookup_cons, List.lookup_cons, ih]
        by_cases h : other = key
        · subst h
          have hbeq : (other == k) = false := by simpa using Ne.symm hk
          simp [hbeq]
        · simp [h]

@[simp] theorem home_put (d : Disk) (key : Key) (entry : Entry) : (d.put key entry).home = d.home :=
  rfl

theorem entry?_put (d : Disk) (key other : Key) (entry : Entry) :
    entry? (d.put key entry) other =
      if other = [] then some .directory
      else if other = key then some entry else d.entry? other := by
  simp only [put, entry?, lookup_putEntry]
  split
  · rfl
  · rfl

theorem entry?_put_self {key : Key} (hkey : key ≠ []) (d : Disk) (entry : Entry) :
    entry? (d.put key entry) key = some entry := by
  rw [entry?_put, if_neg hkey, if_pos rfl]

theorem entry?_put_of_ne {key other : Key} (h : other ≠ key) (d : Disk) (entry : Entry) :
    entry? (d.put key entry) other = d.entry? other := by
  rw [entry?_put, if_neg h]
  split
  · rename_i hnil
    simp [hnil, entry?]
  · rfl

/-- `e` has all that `d` has. -/
structure Extends (d e : Disk) : Prop where
  home : e.home = d.home
  entries : ∀ key entry, d.entry? key = some entry → e.entry? key = some entry

theorem Extends.refl (d : Disk) : d.Extends d :=
  ⟨rfl, fun _ _ h => h⟩

theorem Extends.trans {d e f : Disk} (h : d.Extends e) (h' : e.Extends f) : d.Extends f :=
  ⟨h'.home.trans h.home, fun key entry hkey => h'.entries key entry (h.entries key entry hkey)⟩

theorem extends_put {d : Disk} {key : Key} (h : d.entry? key = none) (entry : Entry) :
    d.Extends (d.put key entry) := by
  refine ⟨rfl, fun other found hother => ?_⟩
  have hne : other ≠ key := by
    rintro rfl
    simp [h] at hother
  rw [entry?_put_of_ne hne, hother]

theorem extends_makeWay (d : Disk) (here : Key) (names : List String) :
    d.Extends (d.makeWay here names).2 := by
  induction names generalizing d here with
  | nil => exact Extends.refl d
  | cons name names ih =>
      rw [makeWay]
      split
      · exact ih d _
      · split
        · exact Extends.refl d
        · dsimp only
          split
          · exact ih d _
          · exact Extends.refl d
          · rename_i hnone
            exact (extends_put hnone .directory).trans (ih _ _)

theorem extends_makeDirectory (d : Disk) (l : Location) : d.Extends (d.makeDirectory l).2 := by
  rw [makeDirectory]
  split
  · exact Extends.refl d
  · exact extends_makeWay d _ _

/-! ### Where a location leads -/

/-- A walk over the directories ends where its names alone say. -/
theorem follow_eq_ok {d : Disk} {here key : Key} {names : List String}
    (h : d.follow here names = .ok key) :
    key = names.foldl (fun key name => if name = ".." then key.dropLast else key ++ [name]) here := by
  induction names generalizing here with
  | nil => simpa [follow, eq_comm] using h
  | cons name names ih =>
      rw [follow] at h
      split at h
      · contradiction
      · contradiction
      · split at h
        · rename_i hname
          simp [hname, ih h]
        · split at h
          · contradiction
          · rename_i hname _
            simp [hname, ih h]

theorem locate_eq_ok {d : Disk} {l : Location} {key : Key} (h : d.locate l = .ok key) :
    key = d.absoluteKey l := by
  rw [locate] at h
  split at h
  · contradiction
  · exact follow_eq_ok h

theorem absoluteKey_of_home {d e : Disk} (h : e.home = d.home) (l : Location) :
    e.absoluteKey l = d.absoluteKey l := by
  simp [absoluteKey, start, h]

/-- A file that is put where no directory is leaves walks as they are. -/
theorem follow_put {d : Disk} {here found key : Key} {names : List String} {bytes : ByteArray}
    (h : d.follow here names = .ok found) (hkey : d.entry? key ≠ some .directory) :
    (d.put key (.file bytes)).follow here names = .ok found := by
  induction names generalizing here with
  | nil => simpa [follow] using h
  | cons name names ih =>
      -- the walk goes on from a directory only, so it does not stand on the file that is put
      have hhere : d.entry? here = some .directory := by
        rw [follow] at h
        split at h <;> first | contradiction | assumption
      have hne : here ≠ key := by
        rintro rfl
        exact hkey hhere
      rw [follow, hhere] at h
      rw [follow, entry?_put_of_ne hne, hhere]
      dsimp only at h ⊢
      by_cases hname : name = ".."
      · rw [if_pos hname] at h ⊢
        exact ih h
      · rw [if_neg hname] at h ⊢
        split at h
        · contradiction
        · rename_i hlong
          rw [if_neg hlong]
          exact ih h

theorem locate_put {d : Disk} {l : Location} {found key : Key} (h : d.locate l = .ok found)
    (hkey : d.entry? key ≠ some .directory) (bytes : ByteArray) :
    (d.put key (.file bytes)).locate l = .ok found := by
  rw [locate] at h ⊢
  split at h
  · contradiction
  · rename_i hlong
    rw [if_neg hlong]
    exact follow_put h hkey

theorem entryAt_put {d : Disk} {l : Location} {key : Key} {bytes : ByteArray}
    (h : d.locate l = .ok key) (hkey : d.entry? key ≠ some .directory) :
    (d.put key (.file bytes)).entryAt l = .ok (.file bytes) := by
  have hne : key ≠ [] := by
    rintro rfl
    exact hkey rfl
  simp [entryAt, locate_put h hkey bytes, entry?_put_self hne, bind, Except.bind]

/-! ### Writing -/

/-- Where bytes land: at their location, or in the directory that stands there. -/
theorem target_eq_ok {d : Disk} {mode : WriteMode} {l : Location} {key : Key}
    (h : d.target mode l = .ok key) :
    ∃ found, d.locate l = .ok found ∧
      ((key = found ∧ d.entry? found ≠ some .directory) ∨
        (key = found ++ [temporaryName l.name] ∧ d.entry? found = some .directory ∧
          mode = .replace)) := by
  cases mode with
  | inPlace =>
      simp only [target, bind, Except.bind] at h
      cases hlocate : d.locate l with
      | error cause => rw [hlocate] at h; contradiction
      | ok found =>
          rw [hlocate] at h
          dsimp only at h
          split at h
          · contradiction
          · rename_i hfound
            exact ⟨found, rfl, .inl ⟨(Except.ok.inj h).symm, hfound⟩⟩
  | replace =>
      simp only [target, bind, Except.bind] at h
      split at h
      · contradiction
      · split at h
        · contradiction
        · cases hlocate : d.locate l with
          | error cause => rw [hlocate] at h; contradiction
          | ok found =>
              rw [hlocate] at h
              dsimp only at h
              split at h
              · -- the directory that stands there takes the file in under its temporary name
                rename_i hfound
                split at h
                · contradiction
                · exact ⟨found, rfl, .inr ⟨(Except.ok.inj h).symm, hfound, rfl⟩⟩
              · rename_i hfound
                exact ⟨found, rfl, .inl ⟨(Except.ok.inj h).symm, hfound⟩⟩

theorem write_eq_ok {d e : Disk} {mode : WriteMode} {l : Location} {bytes : ByteArray}
    (h : d.write mode l bytes = (.ok (), e)) :
    ∃ made key, d.Extends made ∧ made.target mode l = .ok key ∧ e = made.put key (.file bytes) := by
  rw [write] at h
  have hmade := extends_makeDirectory d l.parent
  generalize d.makeDirectory l.parent = made at h hmade
  obtain ⟨result, made⟩ := made
  dsimp only at h hmade
  split at h
  · exact absurd (congrArg Prod.fst h) (by simp)
  · split at h
    · exact absurd (congrArg Prod.fst h) (by simp)
    · rename_i key htarget
      exact ⟨made, key, hmade, htarget, (congrArg Prod.snd h).symm⟩

end DartScaffold.Disk
