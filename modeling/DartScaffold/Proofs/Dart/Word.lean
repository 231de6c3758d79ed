import DartScaffold.Json.Basic
import DartScaffold.Proofs.Dart.Field

/-!
Words: the names and numbers of an expression. Brackets, quotes, commas, colons and blanks are no part
of a word, so a reader finds its end.
-/

namespace DartScaffold

namespace Dart

def isWordPart (c : Char) : Bool :=
  c.isAlphanum || c == '_' || c == '.' || c == '+' || c == '-'

/-- A text that cannot end a word. -/
def InWord (text : String) : Prop :=
  ∀ c ∈ text.toList, isWordPart c = true

instance (text : String) : Decidable (InWord text) :=
  decidable_of_iff (text.toList.all isWordPart = true) (by simp [InWord])

theorem inWord_append {text more : String} :
    InWord (text ++ more) ↔ InWord text ∧ InWord more := by
  rw [InWord, String.toList_append]
  exact List.forall_mem_append

theorem inWord_ite {p : Prop} [Decidable p] {text other : String} (h : InWord text)
    (hother : InWord other) : InWord (if p then text else other) := by
  split
  · exact h
  · exact hother

theorem IsPlain.inWord {name : String} (h : IsPlain name) : InWord name := by
  intro c hc
  rcases h c hc with halpha | rfl | rfl
  · simp [isWordPart, halpha]
  · decide
  · decide

structure IsWord (text : String) : Prop where
  ne : text ≠ ""
  inWord : InWord text

theorem isWordPart_of_isDigit {c : Char} (h : c.isDigit = true) : isWordPart c = true := by
  simp [isWordPart, Char.isAlphanum, h]

/-! ### Numbers -/

theorem isWord_toString_nat (n : Nat) : IsWord (toString n) := by
  refine ⟨fun hempty => ?_, fun c hc => isWordPart_of_isDigit (Text.isDigit_of_mem_toString hc)⟩
  have hdigits := congrArg String.toList hempty
  rw [Nat.toString_eq_repr, Nat.toList_repr] at hdigits
  exact Nat.toDigits_ne_nil hdigits

theorem isWord_toString_int (i : Int) : IsWord (toString i) := by
  cases i with
  | ofNat n => exact isWord_toString_nat n
  | negSucc n =>
      have htext : toString (Int.negSucc n) = "-" ++ toString (n + 1) := rfl
      rw [htext]
      exact ⟨by simp, inWord_append.mpr ⟨by decide, (isWord_toString_nat (n + 1)).inWord⟩⟩

end Dart

namespace Binary64

open Dart (IsWord InWord inWord_append inWord_ite)

/-- Decimal digits. -/
def IsDecimal (ds : List Nat) : Prop :=
  ∀ d ∈ ds, d < 10

theorem inWord_digitText {ds : List Nat} (h : IsDecimal ds) : InWord (digitText ds) := by
  intro c hc
  rw [digitText, String.toList_ofList] at hc
  obtain ⟨d, hd, rfl⟩ := List.mem_map.mp hc
  have hall : ∀ d < 10, Dart.isWordPart d.digitChar = true := by decide
  exact hall d (h d hd)

theorem isDecimal_toDigitList (n : Nat) : IsDecimal (toDigitList n) := by
  intro d hd
  obtain ⟨c, hc, rfl⟩ := List.mem_map.mp hd
  have hdigit : c.isDigit = true := Nat.isDigit_of_mem_toDigits (by decide) (by decide) hc
  simp only [Char.isDigit, ge_iff_le, Bool.and_eq_true, decide_eq_true_eq] at hdigit
  have hle : c.toNat ≤ 57 := hdigit.2
  omega

theorem isDecimal_shortest (m : Nat) (e : Int) : IsDecimal (shortest m e).digits := by
  intro d hd
  have hmem := (List.dropWhile_sublist _).subset (List.mem_reverse.mp hd)
  exact isDecimal_toDigitList _ d (List.mem_reverse.mp hmem)

theorem inWord_exponentText (e : Int) : InWord (exponentText e) := by
  have hdigits := (Dart.isWord_toString_nat e.natAbs).inWord
  rw [exponentText]
  exact inWord_append.mpr ⟨inWord_ite (by decide) (by decide),
    inWord_ite (inWord_append.mpr ⟨by decide, hdigits⟩) hdigits⟩

theorem exponentText_ne (e : Int) : exponentText e ≠ "" := by
  intro hempty
  have hchars := congrArg String.toList hempty
  rw [exponentText, String.toList_append] at hchars
  split at hchars <;> simp at hchars

theorem isWord_digits {d : Digits} (h : IsDecimal d.digits) : IsWord (Digits.text d) := by
  have hzeros : ∀ n, IsDecimal (List.replicate n 0) := by simp [IsDecimal]
  have htake : ∀ n, IsDecimal (d.digits.take n) := fun n c hc => h c (List.mem_of_mem_take hc)
  have hdrop : ∀ n, IsDecimal (d.digits.drop n) := fun n c hc => h c (List.mem_of_mem_drop hc)
  have happend : ∀ {a b : List Nat}, IsDecimal a → IsDecimal b → IsDecimal (a ++ b) :=
    fun ha hb => List.forall_mem_append.mpr ⟨ha, hb⟩
  rw [Digits.text]
  split
  · split
    · exact ⟨by simp, inWord_append.mpr ⟨by decide, inWord_digitText (happend (hzeros _) h)⟩⟩
    · refine ⟨by simp, inWord_append.mpr ⟨inWord_append.mpr
        ⟨inWord_digitText (happend (htake _) (hzeros _)), by decide⟩, inWord_digitText ?_⟩⟩
      split
      · simp [IsDecimal]
      · exact hdrop _
  · refine ⟨by simp [exponentText_ne], inWord_append.mpr ⟨inWord_append.mpr
      ⟨inWord_digitText (htake 1), ?_⟩, inWord_exponentText _⟩⟩
    exact inWord_ite (by decide) (inWord_append.mpr ⟨by decide, inWord_digitText (hdrop 1)⟩)

theorem isWord_text (x : Binary64) : IsWord x.text := by
  rw [text.eq_def]
  split
  · exact ⟨by decide, by decide⟩
  · split <;> exact ⟨by decide, by decide⟩
  · split <;> exact ⟨by decide, by decide⟩
  · rename_i negative m e _
    have hdigits := isWord_digits (isDecimal_shortest m e)
    exact ⟨by simp [hdigits.ne], inWord_append.mpr ⟨inWord_ite (by decide) (by decide),
      hdigits.inWord⟩⟩

end Binary64

end DartScaffold
