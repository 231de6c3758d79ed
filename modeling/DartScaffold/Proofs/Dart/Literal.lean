import DartScaffold.Dart.Literal
import DartScaffold.Proofs.Dart.Line
import DartScaffold.Proofs.Dart.Word

/-!
A literal has the line breaks of the strings in its value, and no others: escaping adds a backslash
before a character and leaves the character itself.
-/

namespace DartScaffold

open Dart (IsOneLine isOneLine_append)

namespace Json

mutual

/-- The strings in a value, the keys of its objects included. -/
def strings : Json → List String
  | .str s => [s]
  | .arr items => stringsOfItems items
  | .obj entries => stringsOfEntries entries
  | _ => []

def stringsOfItems : List Json → List String
  | [] => []
  | item :: rest => item.strings ++ stringsOfItems rest

def stringsOfEntries : List (String × Json) → List String
  | [] => []
  | (k, v) :: rest => k :: (v.strings ++ stringsOfEntries rest)

end

end Json

namespace Dart

theorem InWord.isOneLine {text : String} (h : InWord text) : IsOneLine text := by
  intro c hc
  have hpart := h c hc
  refine ⟨?_, ?_⟩ <;> rintro rfl <;> exact absurd hpart (by decide)

theorem isOneLine_stringLiteral {text : String} (h : IsOneLine text) :
    IsOneLine (stringLiteral text) := by
  intro c hc
  rw [stringLiteral, String.toList_ofList] at hc
  rcases List.mem_append.mp hc with hc | hc
  · rcases List.mem_cons.mp hc with rfl | hc
    · decide
    · obtain ⟨d, hd, hc⟩ := List.mem_flatMap.mp hc
      have hcase : c = '\\' ∨ c = d := by
        rw [escapeChar] at hc
        split at hc
        · simpa using hc
        · exact .inr (by simpa using hc)
      rcases hcase with rfl | rfl
      · decide
      · exact h c hd
  · obtain rfl := List.mem_singleton.mp hc
    decide

mutual

theorem isOneLine_literal (style : MapStyle) (v : Json) (h : ∀ s ∈ v.strings, IsOneLine s) :
    IsOneLine (literal style v) := by
  cases v with
  | null =>
      rw [literal]
      decide
  | bool b =>
      rw [literal]
      cases b <;> decide
  | int i => exact (isWord_toString_int i).inWord.isOneLine
  | float x => exact x.isWord_text.inWord.isOneLine
  | str s => exact isOneLine_stringLiteral (h s (by simp [Json.strings]))
  | arr items =>
      have hitems := isOneLine_literalItems style items (by simpa [Json.strings] using h)
      simp +decide [literal, isOneLine_append, hitems]
  | obj entries =>
      have hhead : IsOneLine style.head := by cases style <;> decide
      have hentries := isOneLine_literalEntries style entries (by simpa [Json.strings] using h)
      simp +decide [literal, isOneLine_append, hhead, hentries]

theorem isOneLine_literalItems (style : MapStyle) (items : List Json)
    (h : ∀ s ∈ Json.stringsOfItems items, IsOneLine s) : IsOneLine (literalItems style items) := by
  match items with
  | [] => simp [literalItems, IsOneLine]
  | [item] =>
      rw [Json.stringsOfItems, List.forall_mem_append] at h
      exact isOneLine_literal style item h.1
  | item :: next :: rest =>
      rw [Json.stringsOfItems, List.forall_mem_append] at h
      have hitem := isOneLine_literal style item h.1
      have hrest := isOneLine_literalItems style (next :: rest) h.2
      simp +decide [literalItems, isOneLine_append, hitem, hrest]

theorem isOneLine_literalEntries (style : MapStyle) (entries : List (String × Json))
    (h : ∀ s ∈ Json.stringsOfEntries entries, IsOneLine s) :
    IsOneLine (literalEntries style entries) := by
  match entries with
  | [] => simp [literalEntries, IsOneLine]
  | [(k, v)] =>
      rw [Json.stringsOfEntries, List.forall_mem_cons, List.forall_mem_append] at h
      have hkey := isOneLine_stringLiteral h.1
      have hvalue := isOneLine_literal style v h.2.1
      simp +decide [literalEntries, isOneLine_append, hkey, hvalue]
  | (k, v) :: next :: rest =>
      rw [Json.stringsOfEntries, List.forall_mem_cons, List.forall_mem_append] at h
      have hkey := isOneLine_stringLiteral h.1
      have hvalue := isOneLine_literal style v h.2.1
      have hrest := isOneLine_literalEntries style (next :: rest) h.2.2
      simp +decide [literalEntries, isOneLine_append, hkey, hvalue, hrest]

end

end Dart

end DartScaffold
