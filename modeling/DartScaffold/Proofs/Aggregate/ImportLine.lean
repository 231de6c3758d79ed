import DartScaffold.Aggregate.ImportLine
import DartScaffold.Proofs.Aggregate.Marker
import DartScaffold.Proofs.Text.Blank

/-!
The normal form of a directive is a normal form: normalising it again changes nothing. It has no
line break, and no directive line is a marker.
-/

namespace DartScaffold.Aggregate

open Text (isBlank Spaced strip collapseBlanks of_mem_head?_strip of_mem_getLast?_strip)

/-! ### Normal forms -/

/-- What normalising arrives at: single quotes, single spaces inside, none before a semicolon. -/
structure IsNormalImport (s : List Char) : Prop where
  head : ∀ c ∈ s.head?, isBlank c = false
  spaced : Spaced [';'] s
  quotes : '"' ∉ s

theorem isBlank_singleQuote (c : Char) : isBlank (if c = '"' then '\'' else c) = isBlank c := by
  split
  · rename_i hc
    subst hc
    decide
  · rfl

theorem quote_not_mem_singleQuotes (s : List Char) : '"' ∉ singleQuotes s := by
  intro h
  obtain ⟨c, -, hc⟩ := List.mem_map.mp h
  split at hc
  · exact absurd hc (by decide)
  · contradiction

theorem singleQuotes_eq_self {s : List Char} (h : '"' ∉ s) : singleQuotes s = s := by
  calc singleQuotes s = s.map id := by
        apply List.map_congr_left
        intro c hc
        have hne : c ≠ '"' := fun e => h (e ▸ hc)
        simp [hne]
    _ = s := List.map_id s

theorem head?_singleQuotes {s : List Char} (h : ∀ c ∈ s.head?, isBlank c = false) :
    ∀ c ∈ (singleQuotes s).head?, isBlank c = false := by
  intro c hc
  rw [singleQuotes, List.head?_map] at hc
  obtain ⟨d, hd, rfl⟩ := Option.map_eq_some_iff.mp hc
  rw [isBlank_singleQuote]
  exact h d hd

theorem getLast?_singleQuotes {s : List Char} (h : ∀ c ∈ s.getLast?, isBlank c = false) :
    ∀ c ∈ (singleQuotes s).getLast?, isBlank c = false := by
  intro c hc
  rw [singleQuotes, List.getLast?_map] at hc
  obtain ⟨d, hd, rfl⟩ := Option.map_eq_some_iff.mp hc
  rw [isBlank_singleQuote]
  exact h d hd

theorem mem_closeSemicolons {s : List Char} {c : Char} (h : c ∈ closeSemicolons s) : c ∈ s := by
  fun_induction closeSemicolons s with grind

theorem head?_closeSemicolons {s : List Char} (h : ∀ c ∈ s.head?, isBlank c = false) :
    (closeSemicolons s).head? = s.head? := by
  fun_cases closeSemicolons s with
  | case1 rest => exact absurd (h ' ' rfl) (by decide)
  | case2 c rest => rfl
  | case3 => rfl

theorem spaced_closeSemicolons {s : List Char} (h : Spaced [] s) :
    Spaced [';'] (closeSemicolons s) := by
  fun_induction closeSemicolons s with
  | case1 rest ih => exact .dark (by decide) (ih h.tail.tail)
  | case2 c rest hne ih =>
      have htail := ih h.tail
      by_cases hc : isBlank c = true
      · obtain ⟨rfl, d, more, rfl, hd, -⟩ := h.of_blank hc
        have hsemi : d ≠ ';' := fun e => hne more rfl (by rw [e])
        have hhead := head?_closeSemicolons (s := d :: more) (by simpa using hd)
        obtain ⟨closed, hclosed⟩ : ∃ closed, closeSemicolons (d :: more) = d :: closed := by
          cases hclose : closeSemicolons (d :: more) with
          | nil => simp [hclose] at hhead
          | cons e closed =>
              obtain rfl : e = d := by simpa [hclose] using hhead
              exact ⟨closed, rfl⟩
        rw [hclosed] at htail ⊢
        exact .space hd (by simpa using hsemi) htail
      · exact .dark (by simpa using hc) htail
  | case3 => exact .nil

theorem closeSemicolons_eq_self {s : List Char} (h : Spaced [';'] s) : closeSemicolons s = s := by
  fun_induction closeSemicolons s with
  | case1 rest ih =>
      obtain ⟨-, d, more, hrest, -, hstop⟩ := h.of_blank (by decide)
      obtain rfl : ';' = d := (List.cons.inj hrest).1
      simp at hstop
  | case2 c rest hne ih => rw [ih h.tail]
  | case3 => rfl

theorem isNormalImport_normalizeImport (line : String) :
    IsNormalImport (normalizeImport line).toList := by
  rw [normalizeImport, String.toList_ofList]
  have hhead := head?_singleQuotes (s := strip line.toList) fun _ => of_mem_head?_strip
  have hlast := getLast?_singleQuotes (s := strip line.toList) fun _ => of_mem_getLast?_strip
  have hcollapsed := Text.head?_collapseBlanks hhead
  rw [← hcollapsed] at hhead
  refine ⟨?_, spaced_closeSemicolons (Text.spaced_collapseBlanks hlast), ?_⟩
  · rw [head?_closeSemicolons hhead]
    exact hhead
  · intro h
    rcases Text.mem_collapseBlanks (mem_closeSemicolons h) with h | h
    · exact absurd h (by decide)
    · exact quote_not_mem_singleQuotes _ h

theorem normalizeImport_of_isNormalImport {line : String} (h : IsNormalImport line.toList) :
    normalizeImport line = line := by
  rw [normalizeImport, Text.strip_eq_self h.head h.spaced.getLast?, singleQuotes_eq_self h.quotes,
    Text.collapseBlanks_eq_self h.spaced, closeSemicolons_eq_self h.spaced, String.ofList_toList]

@[simp] theorem normalizeImport_normalizeImport (line : String) :
    normalizeImport (normalizeImport line) = normalizeImport line :=
  normalizeImport_of_isNormalImport (isNormalImport_normalizeImport line)

/-- The only blanks of a normal form are spaces. -/
theorem not_mem_normalizeImport {c : Char} (hc : isBlank c = true) (hspace : c ≠ ' ')
    (line : String) : c ∉ (normalizeImport line).toList := by
  intro h
  have hspaced := (isNormalImport_normalizeImport line).spaced
  exact hspace (hspaced.eq_space h hc)

/-! ### Directives and markers -/

theorem head?_of_afterDirective? {s rest : List Char} (h : afterDirective? s = some rest) :
    s.head? ≠ some '/' := by
  have hwords : ∀ word ∈ ["import", "export", "part"],
      ∀ more : List Char, (word.toList ++ more).head? ≠ some '/' := by
    intro word hword more
    have hhead : word.toList.head?.isSome ∧ word.toList.head? ≠ some '/' := by
      revert word
      decide
    obtain ⟨c, hc⟩ := Option.isSome_iff_exists.mp hhead.1
    rw [List.head?_append, hc, Option.some_or, ← hc]
    exact hhead.2
  simp only [afterDirective?, Option.or_eq_some_iff, after?_eq_some_iff] at h
  rcases h with h | ⟨-, h | ⟨-, h⟩⟩
  · exact h ▸ hwords "import" (by decide) rest
  · exact h ▸ hwords "export" (by decide) rest
  · exact h ▸ hwords "part" (by decide) rest

theorem firstDark_of_isImportLine {line : String} (h : isImportLine line = true) :
    firstDark line ≠ some '/' := by
  cases hword : afterDirective? (line.toList.dropWhile isBlank) with
  | none => simp [isImportLine, hword] at h
  | some rest => exact head?_of_afterDirective? hword

theorem no_marker_of_isImportLine {line : String} (h : isImportLine line = true) :
    begin? line = none ∧ end? line = none ∧ anchor? line = none :=
  no_marker_of_firstDark (firstDark_of_isImportLine h)

end DartScaffold.Aggregate
