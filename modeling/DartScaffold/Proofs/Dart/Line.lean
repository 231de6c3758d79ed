import DartScaffold.Proofs.Aggregate.Merge
import DartScaffold.Proofs.Dart.Field

/-!
Lines of generated code. A line without a line break in it, and without a slash where its text begins,
stays one line when a file is read again and is never taken for a marker.
-/

namespace DartScaffold.Dart

open Aggregate (BlockKey IsBody firstDark isQuote)

/-- A text without line breaks. -/
def IsOneLine (text : String) : Prop :=
  ∀ c ∈ text.toList, c ≠ '\n' ∧ c ≠ '\r'

instance (text : String) : Decidable (IsOneLine text) :=
  decidable_of_iff (text.toList.all (fun c => c != '\n' && c != '\r') = true) (by simp [IsOneLine])

theorem isOneLine_append {text more : String} :
    IsOneLine (text ++ more) ↔ IsOneLine text ∧ IsOneLine more := by
  rw [IsOneLine, String.toList_append]
  exact List.forall_mem_append

/-- A text that has neither line breaks nor slashes nor quotes. -/
def IsClear (text : String) : Prop :=
  ∀ c ∈ text.toList, c ≠ '\n' ∧ c ≠ '\r' ∧ c ≠ '/' ∧ isQuote c = false

instance (text : String) : Decidable (IsClear text) :=
  decidable_of_iff
    (text.toList.all (fun c => c != '\n' && c != '\r' && c != '/' && !isQuote c) = true)
    (by simp [IsClear, and_assoc])

theorem isClear_append {text more : String} :
    IsClear (text ++ more) ↔ IsClear text ∧ IsClear more := by
  rw [IsClear, String.toList_append]
  exact List.forall_mem_append

theorem IsClear.isOneLine {text : String} (h : IsClear text) : IsOneLine text :=
  fun c hc => ⟨(h c hc).1, (h c hc).2.1⟩

theorem IsPlain.isClear {name : String} (h : IsPlain name) : IsClear name := by
  intro c hc
  have hne : ∀ other, other.isAlphanum = false → other ≠ '_' ∧ other ≠ '.' → c ≠ other := by
    rintro _ halpha hother rfl
    exact h.not_mem halpha hother hc
  refine ⟨hne _ (by decide) (by decide), hne _ (by decide) (by decide),
    hne _ (by decide) (by decide), ?_⟩
  simp [isQuote, hne '\'' (by decide) (by decide), hne '"' (by decide) (by decide)]

theorem isClear_ite {p : Prop} [Decidable p] {text other : String} (h : IsClear text)
    (hother : IsClear other) : IsClear (if p then text else other) := by
  split
  · exact h
  · exact hother

theorem isClear_intercalate {sep : String} (hsep : IsClear sep) {parts : List String}
    (h : ∀ part ∈ parts, IsClear part) : IsClear (sep.intercalate parts) := by
  intro c hc
  rw [String.toList_intercalate] at hc
  rcases Text.mem_of_mem_intercalate hc with hc | ⟨chars, hchars, hc⟩
  · exact hsep c hc
  · obtain ⟨part, hpart, rfl⟩ := List.mem_map.mp hchars
    exact h part hpart c hc

/-- A line that is no comment. -/
structure IsCodeLine (line : String) : Prop where
  oneLine : IsOneLine line
  dark : firstDark line ≠ some '/'

theorem IsClear.isCodeLine {line : String} (h : IsClear line) : IsCodeLine line := by
  refine ⟨h.isOneLine, fun hslash => ?_⟩
  have hmem := (List.dropWhile_sublist _).subset (List.mem_of_head? hslash)
  exact (h _ hmem).2.2.1 rfl

section Block

variable {lines : List String} (h : ∀ line ∈ lines, IsCodeLine line)

include h

theorem isBody_joinLines (hne : lines ≠ []) (key : BlockKey) :
    IsBody key (Text.splitLines (Text.joinLines lines)) := by
  rw [Text.splitLines_joinLines hne fun line hline hmem => ((h line hline).oneLine _ hmem).1 rfl]
  intro line hline
  obtain ⟨hbegin, hend, -⟩ := Aggregate.no_marker_of_firstDark (h line hline).dark
  exact ⟨hbegin, by simp [hend]⟩

theorem carriage_not_mem_joinLines : '\r' ∉ (Text.joinLines lines).toList := by
  intro hmem
  obtain ⟨line, hline, hmem⟩ := Text.mem_joinLines (by decide) hmem
  exact ((h line hline).oneLine _ hmem).2 rfl

end Block

end DartScaffold.Dart
