import DartScaffold.Text.Lines

/-!
Splitting a text into lines and joining them is lossless in both directions, and a text without
carriage returns is read as it stands.
-/

namespace DartScaffold.Text

theorem splitOnChar_eq_splitOn (sep : Char) (s : List Char) :
    splitOnChar sep s = s.splitOn sep := by
  induction s with
  | nil => rfl
  | cons c rest ih =>
      rw [splitOnChar, List.splitOn_cons_eq_if_modifyHead, ih]
      have hne := List.splitOn_ne_nil sep rest
      by_cases hc : c = sep
      · simp [hc]
      · cases hparts : rest.splitOn sep with
        | nil => exact absurd hparts hne
        | cons part parts => simp [hc]

@[simp] theorem splitOnChar_ne_nil (sep : Char) (s : List Char) : splitOnChar sep s ≠ [] := by
  rw [splitOnChar_eq_splitOn]
  exact List.splitOn_ne_nil sep s

theorem not_mem_of_mem_splitOnChar {sep : Char} {s part : List Char}
    (h : part ∈ splitOnChar sep s) : sep ∉ part := by
  induction s generalizing part with
  | nil => simp_all [splitOnChar]
  | cons c rest ih =>
      rw [splitOnChar] at h
      split at h
      · rcases List.mem_cons.mp h with rfl | h
        · simp
        · exact ih h
      · rename_i hc
        cases hparts : splitOnChar sep rest with
        | nil => simp at hparts
        | cons first parts =>
            rw [hparts] at h ih
            rcases List.mem_cons.mp h with rfl | h
            · simp [ih List.mem_cons_self, Ne.symm hc]
            · exact ih (List.mem_cons_of_mem _ h)

/-- Splitting adds no character. -/
theorem mem_of_mem_splitOnChar {sep d : Char} {s part : List Char}
    (h : part ∈ splitOnChar sep s) (hd : d ∈ part) : d ∈ s := by
  induction s generalizing part with
  | nil => simp_all [splitOnChar]
  | cons c rest ih =>
      rw [splitOnChar] at h
      split at h
      · rcases List.mem_cons.mp h with rfl | h
        · simp at hd
        · exact List.mem_cons_of_mem _ (ih h hd)
      · cases hparts : splitOnChar sep rest with
        | nil => simp at hparts
        | cons first parts =>
            rw [hparts] at h ih
            rcases List.mem_cons.mp h with rfl | h
            · rcases List.mem_cons.mp hd with rfl | hd
              · exact List.mem_cons_self
              · exact List.mem_cons_of_mem _ (ih List.mem_cons_self hd)
            · exact List.mem_cons_of_mem _ (ih (List.mem_cons_of_mem _ h) hd)

@[simp] theorem splitLines_ne_nil (text : String) : splitLines text ≠ [] := by
  simp [splitLines]

theorem newline_not_mem_of_mem_splitLines {text line : String} (h : line ∈ splitLines text) :
    '\n' ∉ line.toList := by
  obtain ⟨part, hpart, rfl⟩ := List.mem_map.mp h
  rw [String.toList_ofList]
  exact not_mem_of_mem_splitOnChar hpart

theorem mem_of_mem_splitLines {text line : String} {c : Char} (h : line ∈ splitLines text)
    (hc : c ∈ line.toList) : c ∈ text.toList := by
  obtain ⟨part, hpart, rfl⟩ := List.mem_map.mp h
  rw [String.toList_ofList] at hc
  exact mem_of_mem_splitOnChar hpart hc

@[simp] theorem joinLines_splitLines (text : String) : joinLines (splitLines text) = text := by
  rw [← String.toList_inj, joinLines, String.toList_intercalate, splitLines, List.map_map]
  have hid : String.toList ∘ String.ofList = id := by
    funext s
    simp
  rw [hid, List.map_id, splitOnChar_eq_splitOn]
  exact List.intercalate_splitOn '\n'

/-- What a separator joins is parted at it again. -/
theorem map_splitOnChar_intercalate {sep : Char} {text : String} (htext : text.toList = [sep])
    {parts : List String} (hne : parts ≠ []) (h : ∀ part ∈ parts, sep ∉ part.toList) :
    (splitOnChar sep (text.intercalate parts).toList).map String.ofList = parts := by
  have hparts : ∀ part ∈ parts.map String.toList, sep ∉ part := by
    intro part hpart
    obtain ⟨line, hline, rfl⟩ := List.mem_map.mp hpart
    exact h line hline
  have hid : String.ofList ∘ String.toList = id := by
    funext s
    simp
  rw [String.toList_intercalate, splitOnChar_eq_splitOn, htext,
    List.splitOn_intercalate sep hparts (by simpa using hne), List.map_map, hid, List.map_id]

theorem splitLines_joinLines {lines : List String} (hne : lines ≠ [])
    (h : ∀ line ∈ lines, '\n' ∉ line.toList) : splitLines (joinLines lines) = lines :=
  map_splitOnChar_intercalate rfl hne h

/-- The parts of a line between its spaces. -/
def spaced (line : String) : List String :=
  (splitOnChar ' ' line.toList).map String.ofList

theorem spaced_intercalate {parts : List String} (hne : parts ≠ [])
    (h : ∀ part ∈ parts, ' ' ∉ part.toList) : spaced (" ".intercalate parts) = parts :=
  map_splitOnChar_intercalate rfl hne h

theorem joinLines_cons {line : String} {rest : List String} (hne : rest ≠ []) :
    joinLines (line :: rest) = line ++ "\n" ++ joinLines rest :=
  String.intercalate_cons_of_ne_nil hne

/-- Whatever the lines after it hold, the front of a text is read line by line. -/
theorem splitLines_joinLines_append {front rest : List String} (hne : rest ≠ [])
    (h : ∀ line ∈ front, '\n' ∉ line.toList) :
    splitLines (joinLines (front ++ rest)) = front ++ splitLines (joinLines rest) := by
  induction front with
  | nil => rfl
  | cons line front ih =>
      obtain ⟨hline, hfront⟩ := List.forall_mem_cons.mp h
      have hsplit : ∀ text : String,
          splitLines (line ++ "\n" ++ text) = line :: splitLines text := by
        intro text
        have hchars : (line ++ "\n" ++ text).toList = line.toList ++ '\n' :: text.toList := by
          simp
        rw [splitLines, splitLines, splitOnChar_eq_splitOn, splitOnChar_eq_splitOn, hchars,
          List.splitOn_append_cons_self_of_not_mem hline, List.map_cons, String.ofList_toList]
      rw [List.cons_append, joinLines_cons (by simp [hne]), hsplit, ih hfront, List.cons_append]

/-- Lines that hold line breaks of their own are taken apart at these too. -/
theorem splitLines_joinLines_eq_flatMap {lines : List String} (hne : lines ≠ []) :
    splitLines (joinLines lines) = lines.flatMap splitLines := by
  induction lines with
  | nil => contradiction
  | cons line rest ih =>
      cases rest with
      | nil => simp [joinLines]
      | cons next rest =>
          have hchars : (line ++ "\n" ++ joinLines (next :: rest)).toList =
              line.toList ++ '\n' :: (joinLines (next :: rest)).toList := by simp
          rw [joinLines_cons (by simp), splitLines, hchars, splitOnChar_eq_splitOn,
            List.splitOn_append_cons_self, List.map_append, ← splitOnChar_eq_splitOn,
            ← splitOnChar_eq_splitOn, List.flatMap_cons, ← ih (by simp)]
          rfl

/-- The last line of a text stands at its end. -/
theorem toList_joinLines_concat (front : List String) (last : String) :
    ∃ start, (joinLines (front ++ [last])).toList = start ++ last.toList := by
  induction front with
  | nil => exact ⟨[], by simp [joinLines]⟩
  | cons line front ih =>
      obtain ⟨start, hstart⟩ := ih
      refine ⟨(line ++ "\n").toList ++ start, ?_⟩
      rw [List.cons_append, joinLines_cons (by simp), String.toList_append, hstart, List.append_assoc]

theorem joinLines_append {lines more : List String} (hlines : lines ≠ []) (hmore : more ≠ []) :
    joinLines (lines ++ more) = joinLines lines ++ "\n" ++ joinLines more :=
  String.intercalate_append_of_ne_nil hlines hmore

theorem mem_of_mem_intercalate {α : Type} {sep : List α} {parts : List (List α)} {a : α}
    (h : a ∈ sep.intercalate parts) : a ∈ sep ∨ ∃ part ∈ parts, a ∈ part := by
  induction parts with
  | nil => simp at h
  | cons part parts ih =>
      cases parts with
      | nil => exact .inr ⟨part, List.mem_cons_self, by simpa using h⟩
      | cons next parts =>
          rw [List.intercalate_cons_cons] at h
          rcases List.mem_append.mp h with h | h
          · rcases List.mem_append.mp h with h | h
            · exact .inr ⟨part, List.mem_cons_self, h⟩
            · exact .inl h
          · obtain hsep | ⟨other, hother, ha⟩ := ih h
            · exact .inl hsep
            · exact .inr ⟨other, List.mem_cons_of_mem _ hother, ha⟩

theorem mem_intercalate {α : Type} {sep : List α} {parts : List (List α)} {part : List α} {a : α}
    (hpart : part ∈ parts) (ha : a ∈ part) : a ∈ sep.intercalate parts := by
  induction parts with
  | nil => contradiction
  | cons first parts ih =>
      cases parts with
      | nil =>
          obtain rfl := List.mem_singleton.mp hpart
          simpa using ha
      | cons next parts =>
          rw [List.intercalate_cons_cons]
          rcases List.mem_cons.mp hpart with rfl | hpart
          · exact List.mem_append_left _ (List.mem_append_left _ ha)
          · exact List.mem_append_right _ (ih hpart)

theorem intercalate_ne_nil {α : Type} {sep : List α} {parts : List (List α)} (hne : parts ≠ [])
    (h : ∀ part ∈ parts, part ≠ []) : sep.intercalate parts ≠ [] := by
  cases parts with
  | nil => exact absurd rfl hne
  | cons part parts =>
      have hpart := h part List.mem_cons_self
      cases parts <;> simp [List.intercalate_cons_cons, hpart]

/-- Paragraphs stand apart by one blank line. -/
theorem joinLines_paragraphs {paragraphs : List (List String)} (h : ∀ p ∈ paragraphs, p ≠ []) :
    joinLines ([""].intercalate paragraphs) = "\n\n".intercalate (paragraphs.map joinLines) := by
  induction paragraphs with
  | nil => rfl
  | cons first rest ih =>
      obtain ⟨hfirst, hrest⟩ := List.forall_mem_cons.mp h
      cases rest with
      | nil => simp
      | cons next rest =>
          have hjoined : [""].intercalate (next :: rest) ≠ [] :=
            intercalate_ne_nil (by simp) hrest
          rw [List.intercalate_cons_cons, List.map_cons, List.append_assoc,
            joinLines_append hfirst (by simp), joinLines_append (by simp) hjoined, ih hrest,
            String.intercalate_cons_of_ne_nil (by simp)]
          simp [← String.toList_inj, joinLines]

theorem intercalate_flatMap {α : Type} (sep : String) {f : α → List String} (hf : ∀ a, f a ≠ [])
    (items : List α) :
    sep.intercalate (items.flatMap f) = sep.intercalate (items.map fun a => sep.intercalate (f a)) := by
  induction items with
  | nil => rfl
  | cons a items ih =>
      cases items with
      | nil => simp
      | cons b items =>
          rw [List.flatMap_cons, String.intercalate_append_of_ne_nil (hf a) (by simp [hf b]), ih]
          exact (String.intercalate_cons_of_ne_nil (by simp)).symm

theorem mem_joinLines {lines : List String} {c : Char} (hc : c ≠ '\n')
    (h : c ∈ (joinLines lines).toList) : ∃ line ∈ lines, c ∈ line.toList := by
  induction lines with
  | nil => simp [joinLines] at h
  | cons line rest ih =>
      by_cases hrest : rest = []
      · subst hrest
        exact ⟨line, List.mem_cons_self, by simpa [joinLines] using h⟩
      · rw [joinLines, String.intercalate_cons_of_ne_nil hrest] at h
        simp only [String.toList_append, List.mem_append] at h
        rcases h with (h | h) | h
        · exact ⟨line, List.mem_cons_self, h⟩
        · exact absurd (by simpa using h) hc
        · obtain ⟨other, hother, hmem⟩ := ih h
          exact ⟨other, List.mem_cons_of_mem _ hother, hmem⟩

theorem normalizeNewlines_of_not_mem {s : List Char} (h : '\r' ∉ s) :
    normalizeNewlines s = s := by
  fun_induction normalizeNewlines s <;> simp_all

theorem carriage_not_mem_normalizeNewlines (s : List Char) : '\r' ∉ normalizeNewlines s := by
  fun_induction normalizeNewlines s with
  | case1 => simp
  | case2 rest ih => simp [ih]
  | case3 rest _ ih => simp [ih]
  | case4 c rest _ hc ih =>
      have hne : '\r' ≠ c := fun e => hc e.symm
      simp [ih, hne]

end DartScaffold.Text
