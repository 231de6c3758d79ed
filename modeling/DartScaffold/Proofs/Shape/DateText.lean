import DartScaffold.Proofs.Shape.Conform
import Mathlib.Computability.Language

/-!
The language of dates, and what is read as one. The parts after the day may be absent, in any
combination, but no part begins as what may follow it: a reader that takes each part where it can
never has to give one back. So it accepts just the language.
-/

namespace DartScaffold.Shape

open Text (isBlank isDecimalDigit)
open Computability

/-! ### The language -/

/-- One character of a class. -/
def oneOf (p : Char → Bool) : Language Char :=
  {s | ∃ c, p c = true ∧ s = [c]}

abbrev just (c : Char) : Language Char :=
  oneOf (· == c)

abbrev digit : Language Char :=
  oneOf isDecimalDigit

def optional (l : Language Char) : Language Char :=
  1 + l

def dayTexts : Language Char :=
  digit ^ 4 * just '-' * digit ^ 2 * just '-' * digit ^ 2

/-- Hours and minutes, with one separator or none before them, and with seconds or without. -/
def clockTexts : Language Char :=
  optional (oneOf fun c => isBlank c || c == 'T') * digit ^ 2 * just ':' * digit ^ 2 *
    optional (just ':' * digit ^ 2)

def fractionTexts : Language Char :=
  just '.' * digit * digit∗

/-- The zone of a clock at Greenwich, or an offset from there. -/
def zoneTexts : Language Char :=
  just 'Z' + oneOf (fun c => c == '+' || c == '-') * digit ^ 2 * optional (just ':') * digit ^ 2

def dateTexts : Language Char :=
  dayTexts * optional clockTexts * optional fractionTexts * optional zoneTexts * optional (just '\n')

/-! ### Words of a language -/

section Words

variable {l m : Language Char} {s : List Char}

@[simp] theorem nil_mem_oneOf_mul (p : Char → Bool) (m : Language Char) : [] ∉ oneOf p * m := by
  rw [Language.mem_mul]
  rintro ⟨word, ⟨c, -, rfl⟩, rest, -, hword⟩
  simp at hword

@[simp] theorem cons_mem_oneOf_mul (p : Char → Bool) (m : Language Char) (c : Char) :
    c :: s ∈ oneOf p * m ↔ p c = true ∧ s ∈ m := by
  rw [Language.mem_mul]
  constructor
  · rintro ⟨word, ⟨d, hd, rfl⟩, rest, hrest, hword⟩
    obtain ⟨rfl, rfl⟩ : d = c ∧ rest = s := by simpa using hword
    exact ⟨hd, hrest⟩
  · rintro ⟨hc, hs⟩
    exact ⟨[c], ⟨c, hc, rfl⟩, s, hs, rfl⟩

theorem mem_just_iff {c : Char} : s ∈ just c ↔ s = [c] := by
  constructor
  · rintro ⟨d, hd, rfl⟩
    rw [eq_of_beq hd]
  · rintro rfl
    exact ⟨c, beq_self_eq_true c, rfl⟩

theorem mem_optional_mul : s ∈ optional l * m ↔ s ∈ m ∨ s ∈ l * m := by
  rw [optional, add_mul, one_mul, Language.mem_add]

theorem mem_kstar_mul : s ∈ l∗ * m ↔ s ∈ m ∨ s ∈ l * (l∗ * m) := by
  rw [← mul_assoc, ← Language.mem_add]
  nth_rewrite 1 [← Language.one_add_self_mul_kstar_eq_kstar l]
  rw [add_mul, one_mul]

end Words

/-! ### Readers -/

/-- A text begins with a word of the language just if the reader accepts it, and then the reader leaves
what stands after the word. -/
def Reads (read : List Char → Option (List Char)) (l : Language Char) : Prop :=
  ∀ m s, s ∈ l * m ↔ ∃ rest ∈ m, read s = some rest

section Readers

variable {read next : List Char → Option (List Char)} {k l m : Language Char} {s : List Char}

theorem Reads.mul (h : Reads read l) (hnext : Reads next k) :
    Reads (fun s => (read s).bind next) (l * k) := by
  intro m s
  simp only [mul_assoc, h (k * m) s, hnext m, Option.bind_eq_some_iff]
  grind

/-- A part that may be absent is taken where it can be, if what follows does not begin as it does. -/
theorem Reads.mem_optional_mul (h : Reads read l) (hm : ∀ s ∈ m, read s = none) :
    s ∈ optional l * m ↔ (read s).getD s ∈ m := by
  rw [Shape.mem_optional_mul, h m s]
  cases hread : read s with
  | none => simp
  | some rest =>
      have hs : s ∉ m := fun hmem => by simp [hm s hmem] at hread
      simp [hs]

theorem reads_afterChar? (c : Char) : Reads (afterChar? c) (just c) := by
  intro m s
  cases s with
  | nil => simp [afterChar?]
  | cons d s => by_cases hd : d = c <;> simp [afterChar?, hd]

theorem reads_afterDigits? (n : Nat) : Reads (afterDigits? n) (digit ^ n) := by
  induction n with
  | zero => simp [Reads, afterDigits?]
  | succ n ih =>
      intro m s
      rw [pow_succ', mul_assoc]
      cases s with
      | nil => simp [afterDigits?]
      | cons c s => by_cases hc : isDecimalDigit c = true <;> simp [afterDigits?, hc, ih m s]

theorem reads_afterDate? : Reads afterDate? dayTexts := by
  have hdays := (((reads_afterDigits? 4).mul (reads_afterChar? '-')).mul (reads_afterDigits? 2)).mul
    ((reads_afterChar? '-').mul (reads_afterDigits? 2))
  intro m s
  rw [dayTexts, mul_assoc (digit ^ 4 * just '-' * digit ^ 2), hdays m s]
  simp [afterDate?, Option.bind_assoc]

theorem reads_afterClock? : Reads afterClock? (digit ^ 2 * just ':' * digit ^ 2) := by
  have hclock := ((reads_afterDigits? 2).mul (reads_afterChar? ':')).mul (reads_afterDigits? 2)
  intro m s
  rw [hclock m s]
  simp [afterClock?, Option.bind_assoc]

theorem exists_cons_of_mem_digits (h : s ∈ digit ^ 2 * m) :
    ∃ c rest, s = c :: rest ∧ isDecimalDigit c = true := by
  rw [pow_two, mul_assoc] at h
  cases s with
  | nil => simp at h
  | cons c rest => exact ⟨c, rest, rfl, ((cons_mem_oneOf_mul _ _ c).mp h).1⟩

theorem reads_afterOffset? : Reads afterOffset? (digit ^ 2 * optional (just ':') * digit ^ 2) := by
  intro m s
  -- no colon stands where the minutes begin
  have hcolon : ∀ s ∈ digit ^ 2 * m, afterChar? ':' s = none := by
    intro s hs
    obtain ⟨c, rest, rfl, hc⟩ := exists_cons_of_mem_digits hs
    have hne : c ≠ ':' := by
      rintro rfl
      exact absurd hc (by decide)
    simp [afterChar?, hne]
  rw [mul_assoc, mul_assoc, reads_afterDigits? 2]
  simp only [(reads_afterChar? ':').mem_optional_mul hcolon, reads_afterDigits? 2 m, afterOffset?,
    Option.bind_eq_bind, Option.bind_eq_some_iff]
  grind

theorem mem_kstar_digit_mul (hm : ∀ c s, c :: s ∈ m → isDecimalDigit c = false) :
    s ∈ digit∗ * m ↔ s.dropWhile isDecimalDigit ∈ m := by
  induction s with
  | nil => simp [mem_kstar_mul]
  | cons c s ih =>
      rw [mem_kstar_mul, cons_mem_oneOf_mul, ih]
      by_cases hc : isDecimalDigit c = true
      · have hnot : c :: s ∉ m := fun h => by simp [hm c s h] at hc
        simp [hc, hnot]
      · simp [hc]

end Readers

/-! ### Parts that may be absent -/

def endTexts : Language Char :=
  optional (just '\n')

def afterFractionTexts : Language Char :=
  optional zoneTexts * endTexts

def afterClockTexts : Language Char :=
  optional fractionTexts * afterFractionTexts

/-- Nothing is left but the line feed that may end the text, or a part begins with one of `heads`. -/
def Follows (heads : List Char) (s : List Char) : Prop :=
  s = [] ∨ s = ['\n'] ∨ ∃ c ∈ heads, ∃ rest, s = c :: rest

theorem Follows.head_mem {heads s : List Char} {c : Char} (h : Follows heads (c :: s)) :
    c ∈ '\n' :: heads := by
  rcases h with h | h | ⟨d, hd, rest, h⟩
  · exact absurd h (by simp)
  · exact (List.cons.inj h).1 ▸ List.mem_cons_self
  · exact List.mem_cons_of_mem _ ((List.cons.inj h).1 ▸ hd)

section Parts

variable {s : List Char}

theorem mem_endTexts_iff : s ∈ endTexts ↔ s = [] ∨ s = ['\n'] := by
  rw [endTexts, optional, Language.mem_add, Language.mem_one, mem_just_iff]

theorem mem_afterFractionTexts_iff : s ∈ afterFractionTexts ↔ afterZone s ∈ endTexts := by
  have hzone : s ∈ afterFractionTexts ↔ s ∈ endTexts ∨ s ∈ just 'Z' * endTexts ∨
      s ∈ oneOf (fun c => c == '+' || c == '-') *
        (digit ^ 2 * optional (just ':') * digit ^ 2 * endTexts) := by
    rw [afterFractionTexts, mem_optional_mul, zoneTexts, add_mul, Language.mem_add]
    simp only [mul_assoc]
  rw [hzone]
  fun_cases afterZone s with
  | case1 s => simp [mem_endTexts_iff]
  | case2 c s hz hsign =>
      have hne : c ≠ 'Z' := hz
      have hline : c ≠ '\n' := by
        rintro rfl
        simp at hsign
      rw [cons_mem_oneOf_mul, cons_mem_oneOf_mul, reads_afterOffset?]
      cases hoffset : afterOffset? s with
      | none => simp [hne]
      | some rest => simp [hne, mem_endTexts_iff, hline, hsign]
  | case3 c s hz hsign =>
      have hne : c ≠ 'Z' := hz
      simp [hne, hsign]
  | case4 => simp

theorem follows_of_mem_afterFractionTexts (h : s ∈ afterFractionTexts) :
    Follows ['Z', '+', '-'] s := by
  rw [mem_afterFractionTexts_iff, mem_endTexts_iff] at h
  revert h
  fun_cases afterZone s with
  | case1 s => exact fun _ => .inr (.inr ⟨'Z', by simp, s, rfl⟩)
  | case2 c s hz hsign => exact fun _ => .inr (.inr ⟨c, by simp [hsign], s, rfl⟩)
  | case3 c s hz hsign => exact fun h => h.imp_right .inl
  | case4 => exact fun _ => .inl rfl

theorem mem_afterClockTexts_iff : s ∈ afterClockTexts ↔ afterFraction s ∈ afterFractionTexts := by
  have hheads : ['\n', 'Z', '+', '-'].all (fun c => !isDecimalDigit c && c != '.') = true := by decide
  have hhead : ∀ c s, c :: s ∈ afterFractionTexts → isDecimalDigit c = false ∧ c ≠ '.' := by
    intro c s h
    simpa using List.all_eq_true.mp hheads c (follows_of_mem_afterFractionTexts h).head_mem
  rw [afterClockTexts, mem_optional_mul, fractionTexts, mul_assoc, mul_assoc]
  fun_cases afterFraction s with
  | case1 c s hc =>
      have hpoint : '.' :: c :: s ∉ afterFractionTexts := fun h => (hhead _ _ h).2 rfl
      simp [hpoint, hc, mem_kstar_digit_mul fun c s h => (hhead c s h).1]
  | case2 c s hc => simp [hc]
  | case3 s hs =>
      match s with
      | [] => simp
      | [c] => simp
      | c :: d :: s =>
          have hne : c ≠ '.' := fun h => hs d s (by rw [h])
          simp [hne]

theorem follows_of_mem_afterClockTexts (h : s ∈ afterClockTexts) :
    Follows ['.', 'Z', '+', '-'] s := by
  rw [mem_afterClockTexts_iff] at h
  revert h
  fun_cases afterFraction s with
  | case1 c s hc => exact fun _ => .inr (.inr ⟨'.', by simp, _, rfl⟩)
  | case2 c s hc => exact fun _ => .inr (.inr ⟨'.', by simp, _, rfl⟩)
  | case3 s hs =>
      intro h
      refine (follows_of_mem_afterFractionTexts h).imp_right (Or.imp_right ?_)
      exact fun ⟨c, hc, hrest⟩ => ⟨c, List.mem_cons_of_mem _ hc, hrest⟩

/-- What may follow a clock does not read as one, and does not read as its seconds. -/
theorem no_clock_of_mem_afterClockTexts (h : s ∈ afterClockTexts) :
    afterClock? (afterSeparator s) = none ∧ afterChar? ':' s = none := by
  have hheads : ['.', 'Z', '+', '-'].all
      (fun c => !isBlank c && c != 'T' && !isDecimalDigit c && c != ':') = true := by decide
  rcases follows_of_mem_afterClockTexts h with rfl | rfl | ⟨c, hc, rest, rfl⟩
  · exact ⟨rfl, rfl⟩
  · decide
  · obtain ⟨⟨⟨hblank, ht⟩, hdigit⟩, hcolon⟩ :
        ((isBlank c = false ∧ c ≠ 'T') ∧ isDecimalDigit c = false) ∧ c ≠ ':' := by
      simpa using List.all_eq_true.mp hheads c hc
    simp [afterSeparator, afterClock?, afterDigits?, afterChar?, hblank, ht, hdigit, hcolon]

theorem isDecimalDigit_of_separator {c : Char} (h : isBlank c = true ∨ c = 'T') :
    isDecimalDigit c = false := by
  have hblanks : ∀ n ∈ [0x85, 0xa0, 0x1680, 0x2028, 0x2029, 0x202f, 0x205f, 0x3000] ++
      List.range' 9 5 ++ List.range' 28 5 ++ List.range' 0x2000 11,
      isDecimalDigit (Char.ofNat n) = false := by
    decide +kernel
  rcases h with h | rfl
  · have hblank := hblanks c.toNat (by
      simp only [isBlank, Bool.or_eq_true, Bool.and_eq_true, decide_eq_true_eq, beq_iff_eq] at h
      simp only [List.mem_append, List.mem_cons, List.mem_range'_1, List.not_mem_nil]
      omega)
    rwa [Char.ofNat_toNat] at hblank
  · decide

/-- The separator is taken where it can be, since no clock begins with one. -/
theorem mem_separator_mul_iff {m : Language Char} :
    s ∈ optional (oneOf fun c => isBlank c || c == 'T') * (digit ^ 2 * m) ↔
      afterSeparator s ∈ digit ^ 2 * m := by
  rw [mem_optional_mul]
  fun_cases afterSeparator s with
  | case1 c s hc =>
      have hnot : c :: s ∉ digit ^ 2 * m := by
        intro h
        obtain ⟨d, rest, hd, hdigits⟩ := exists_cons_of_mem_digits h
        obtain ⟨rfl, -⟩ := List.cons.inj hd
        simp [isDecimalDigit_of_separator hc] at hdigits
      simp [hnot, hc]
  | case2 c s hc => simp [hc]
  | case3 => simp

theorem mem_afterDayTexts_iff :
    s ∈ optional clockTexts * afterClockTexts ↔ afterTime s ∈ afterClockTexts := by
  have hseconds : ∀ s, s ∈ optional (just ':' * digit ^ 2) * afterClockTexts ↔
      afterSeconds s ∈ afterClockTexts := by
    intro s
    rw [((reads_afterChar? ':').mul (reads_afterDigits? 2)).mem_optional_mul]
    · rfl
    · intro s hs
      simp [(no_clock_of_mem_afterClockTexts hs).2]
  have hclock : s ∈ clockTexts * afterClockTexts ↔
      ∃ rest, afterClock? (afterSeparator s) = some rest ∧ afterSeconds rest ∈ afterClockTexts := by
    have hread := reads_afterClock? (optional (just ':' * digit ^ 2) * afterClockTexts)
      (afterSeparator s)
    simp only [mul_assoc, hseconds] at hread
    simp only [clockTexts, mul_assoc, mem_separator_mul_iff]
    rw [hread]
    grind
  rw [mem_optional_mul, hclock, afterTime]
  cases hread : afterClock? (afterSeparator s) with
  | none => simp
  | some rest =>
      have hnot : s ∉ afterClockTexts := fun h => by
        simp [(no_clock_of_mem_afterClockTexts h).1] at hread
      simp [hnot]

end Parts

/-- A text is read as a date just if it is in the language. -/
theorem isDateText_iff_mem (text : String) : isDateText text = true ↔ text.toList ∈ dateTexts := by
  have hdates : dateTexts = dayTexts * (optional clockTexts * afterClockTexts) := by
    simp only [dateTexts, afterClockTexts, afterFractionTexts, endTexts, mul_assoc]
  rw [hdates, reads_afterDate?, isDateText]
  cases hday : afterDate? text.toList with
  | none => simp
  | some s =>
      have hrest : s ∈ optional clockTexts * afterClockTexts ↔
          afterZone (afterFraction (afterTime s)) = [] ∨
            afterZone (afterFraction (afterTime s)) = ['\n'] := by
        rw [mem_afterDayTexts_iff, mem_afterClockTexts_iff, mem_afterFractionTexts_iff,
          mem_endTexts_iff]
      simp only [Option.some.injEq, exists_eq_right', hrest]
      split <;> simp_all

end DartScaffold.Shape
