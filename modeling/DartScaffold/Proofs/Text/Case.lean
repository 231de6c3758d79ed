import DartScaffold.Text.Case

/-!
Pascal case consists of ASCII letters and digits, and of capitals and digits where a word begins. Camel
case has no other characters, and snake case has underscores as well.
-/

namespace DartScaffold.Text

theorem ascii_of_isAlphanum {c : Char} (h : c.isAlphanum = true) : c.toNat < 128 := by
  have hranges : ((decide ('A'.val ≤ c.val ∧ c.val ≤ 'Z'.val) ||
      decide ('a'.val ≤ c.val) && decide (c.val ≤ 'z'.val)) ||
      decide ('0'.val ≤ c.val) && decide (c.val ≤ '9'.val)) = true := h
  simp [UInt32.le_iff_toNat_le] at hranges
  omega

/-- How the case of letters and digits changes. Below 128 there are few enough to look at all. -/
theorem case_of_lt :
    ∀ n < 128, (Char.ofNat n).isAlphanum = true →
      (Char.ofNat n).toLower.isAlphanum = true ∧ (Char.ofNat n).toUpper.isAlphanum = true ∧
        ((Char.ofNat n).toLower.toUpper.isUpper = true ∨
          (Char.ofNat n).toLower.toUpper.isDigit = true) := by
  decide +kernel

theorem case_of_isAlphanum {c : Char} (h : c.isAlphanum = true) :
    c.toLower.isAlphanum = true ∧ c.toUpper.isAlphanum = true ∧
      (c.toLower.toUpper.isUpper = true ∨ c.toLower.toUpper.isDigit = true) := by
  have hcase := case_of_lt c.toNat (ascii_of_isAlphanum h)
  rw [Char.ofNat_toNat] at hcase
  exact hcase h

/-- A letter stays a letter. -/
theorem isDigit_of_isAlpha {c : Char} (h : c.isAlpha = true) :
    c.toLower.toUpper.isDigit = false := by
  have hcase : ∀ n < 128, (Char.ofNat n).isAlpha = true →
      (Char.ofNat n).toLower.toUpper.isDigit = false := by
    decide +kernel
  have hchar := hcase c.toNat (ascii_of_isAlphanum (by simp [Char.isAlphanum, h]))
  rw [Char.ofNat_toNat] at hchar
  exact hchar h

theorem isAlphanum_of_mem_pieces {joins : Char → List Char → Bool} {s piece : List Char}
    (hpiece : piece ∈ pieces joins s) : ∀ c ∈ piece, c.isAlphanum = true := by
  fun_induction pieces joins s generalizing piece with
  | case1 => simp at hpiece
  | case2 c rest hc hjoins hnil ih =>
      obtain rfl := List.mem_singleton.mp hpiece
      simpa using hc
  | case3 c rest hc hjoins first more hsplit ih =>
      rcases List.mem_cons.mp hpiece with rfl | hpiece
      · rw [hsplit] at ih
        simpa [hc] using ih List.mem_cons_self
      · rw [hsplit] at ih
        exact ih (List.mem_cons_of_mem _ hpiece)
  | case4 c rest hc hjoins ih =>
      rcases List.mem_cons.mp hpiece with rfl | hpiece
      · simpa using hc
      · exact ih hpiece
  | case5 c rest hc ih => exact ih hpiece

theorem pieces_cons {joins : Char → List Char → Bool} {c : Char} (hc : c.isAlphanum = true)
    (s : List Char) : ∃ piece more, pieces joins (c :: s) = (c :: piece) :: more := by
  rw [pieces, if_pos hc]
  split
  · split
    · exact ⟨[], [], rfl⟩
    · rename_i piece more _
      exact ⟨piece, more, rfl⟩
  · exact ⟨[], _, rfl⟩

section Capitalize

variable {word : List Char}

/-- A word in small letters. -/
def IsWord (word : List Char) : Prop :=
  ∃ piece : List Char, word = piece.map Char.toLower ∧ ∀ c ∈ piece, c.isAlphanum = true

theorem isWord_of_mem_words {name : List Char} (h : word ∈ words name) : IsWord word := by
  obtain ⟨piece, hpiece, rfl⟩ := List.mem_map.mp h
  exact ⟨piece, rfl, isAlphanum_of_mem_pieces hpiece⟩

theorem IsWord.capitalize (h : IsWord word) :
    (∀ c ∈ capitalize word, c.isAlphanum = true) ∧
      ∀ c ∈ (Text.capitalize word).head?, c.isUpper = true ∨ c.isDigit = true := by
  obtain ⟨piece, rfl, hpiece⟩ := h
  cases piece with
  | nil => simp [Text.capitalize]
  | cons c piece =>
      obtain ⟨hc, hrest⟩ := List.forall_mem_cons.mp hpiece
      obtain ⟨hlower, -, hfirst⟩ := case_of_isAlphanum hc
      refine ⟨?_, by simpa [Text.capitalize] using hfirst⟩
      simp only [List.map_cons, Text.capitalize, List.forall_mem_cons, List.forall_mem_map]
      exact ⟨(case_of_isAlphanum hlower).2.1, fun d hd => (case_of_isAlphanum (hrest d hd)).1⟩

end Capitalize

theorem isAlphanum_of_mem_pascalCase {name : String} {c : Char}
    (h : c ∈ (pascalCase name).toList) : c.isAlphanum = true := by
  rw [pascalCase, String.toList_ofList] at h
  obtain ⟨word, hword, hc⟩ := List.mem_flatMap.mp h
  exact (isWord_of_mem_words hword).capitalize.1 c hc

theorem of_mem_head?_pascalCase {name : String} {c : Char}
    (h : c ∈ (pascalCase name).toList.head?) : c.isUpper = true ∨ c.isDigit = true := by
  rw [pascalCase, String.toList_ofList] at h
  have hwords : ∀ word ∈ words name.toList, IsWord word := fun _ => isWord_of_mem_words
  generalize words name.toList = ws at h hwords
  induction ws with
  | nil => simp at h
  | cons word ws ih =>
      obtain ⟨hword, hws⟩ := List.forall_mem_cons.mp hwords
      rw [List.flatMap_cons] at h
      cases hfirst : capitalize word with
      | nil =>
          rw [hfirst, List.nil_append] at h
          exact ih h hws
      | cons d rest =>
          rw [hfirst] at h
          refine hword.capitalize.2 c ?_
          rw [hfirst]
          exact h

theorem toList_pascalCase_cons {name : String} {c : Char} {rest : List Char}
    (hname : name.toList = c :: rest) (hc : c.isAlphanum = true) :
    ∃ tail, (pascalCase name).toList = c.toLower.toUpper :: tail := by
  obtain ⟨piece, more, hpieces⟩ := pieces_cons hc rest
  rw [pascalCase, String.toList_ofList, hname, words, hpieces]
  exact ⟨_, rfl⟩

theorem isAlphanum_of_mem_camelCase {name : String} {c : Char}
    (h : c ∈ (camelCase name).toList) : c.isAlphanum = true := by
  have hwords : ∀ word ∈ words name.toList, IsWord word := fun _ => isWord_of_mem_words
  rw [camelCase] at h
  cases hsplit : words name.toList with
  | nil => simp [hsplit] at h
  | cons first rest =>
      rw [hsplit] at h hwords
      obtain ⟨⟨piece, rfl, hpiece⟩, hrest⟩ := List.forall_mem_cons.mp hwords
      rw [String.toList_ofList] at h
      rcases List.mem_append.mp h with h | h
      · obtain ⟨d, hd, rfl⟩ := List.mem_map.mp h
        exact (case_of_isAlphanum (hpiece d hd)).1
      · obtain ⟨word, hword, hc⟩ := List.mem_flatMap.mp h
        exact (hrest word hword).capitalize.1 c hc

theorem of_mem_snakeCase {name : String} {c : Char} (h : c ∈ (snakeCase name).toList) :
    c.isAlphanum = true ∨ c = '_' := by
  rw [snakeCase, String.toList_ofList] at h
  have hparts : ∀ part ∈ snakeParts name.toList, ∀ d ∈ part, d.isAlphanum = true := by
    intro part hpart d hd
    obtain ⟨piece, hpiece, rfl⟩ := List.mem_map.mp hpart
    obtain ⟨e, he, rfl⟩ := List.mem_map.mp hd
    exact (case_of_isAlphanum (isAlphanum_of_mem_pieces hpiece e he)).1
  generalize snakeParts name.toList = parts at h hparts
  induction parts with
  | nil => simp at h
  | cons part parts ih =>
      obtain ⟨hpart, hrest⟩ := List.forall_mem_cons.mp hparts
      cases parts with
      | nil => exact .inl (hpart c (by simpa using h))
      | cons next parts =>
          rw [List.intercalate_cons_cons] at h
          simp only [List.mem_append, List.mem_singleton] at h
          rcases h with (h | h) | h
          · exact .inl (hpart c h)
          · exact .inr h
          · exact ih h hrest

end DartScaffold.Text
