import DartScaffold.Decimal.Binary64
import Mathlib.Algebra.Order.Field.Power
import Mathlib.Data.Rat.Cast.Order
import Mathlib.Tactic.FieldSimp
import Mathlib.Tactic.Linarith
import Mathlib.Tactic.NormNum
import Mathlib.Tactic.Positivity
import Mathlib.Tactic.Ring

/-!
The range of floating-point numbers.
-/

namespace DartScaffold.Binary64

theorem scaleDown_pos {num den : Nat} (hden : 0 < den) (e : Int) : 0 < (scaleDown num den e).2 := by
  rw [scaleDown]
  split
  · exact Nat.mul_pos hden (Nat.two_pow_pos _)
  · exact hden

/-- Scaled down by `2 ^ e`, a fraction is compared with the bound scaled up. -/
theorem le_scaleDown_iff (k num den : Nat) (e : Int) :
    k * (scaleDown num den e).2 ≤ (scaleDown num den e).1 ↔ (k : ℚ) * 2 ^ e * den ≤ num := by
  rw [scaleDown]
  split
  · rename_i he
    obtain ⟨n, rfl⟩ := Int.eq_ofNat_of_zero_le he
    rw [← Nat.cast_le (α := ℚ)]
    simp [twoTo, mul_comm, mul_left_comm]
  · rename_i he
    obtain ⟨n, rfl⟩ : ∃ n : Nat, e = -n := ⟨(-e).toNat, by omega⟩
    rw [← Nat.cast_le (α := ℚ)]
    simp only [neg_neg, Int.toNat_natCast, twoTo, Nat.pow_eq, Nat.cast_mul, Nat.cast_pow,
      Nat.cast_ofNat, zpow_neg, zpow_natCast]
    field_simp

theorem log2_bounds {n : Nat} (hn : 0 < n) :
    (2 : ℚ) ^ (n.log2 : Int) ≤ n ∧ (n : ℚ) < 2 ^ ((n.log2 : Int) + 1) := by
  have hlow := Nat.log2_self_le hn.ne'
  have hhigh := (Nat.log2_lt hn.ne').mp (Nat.lt_succ_self n.log2)
  refine ⟨?_, ?_⟩
  · rw [zpow_natCast]
    exact_mod_cast hlow
  · rw [← Nat.cast_succ, zpow_natCast]
    exact_mod_cast hhigh

/-- The exponent is the one at which the quotient is less than `2 ^ 53`, and no lower than that. -/
theorem lt_exponentFor_iff {num den : Nat} (hnum : 0 < num) (hden : 0 < den) {e : Int}
    (he : minExponent ≤ e) :
    e < exponentFor num den ↔ ((twoTo 53 : Nat) : ℚ) * 2 ^ e * den ≤ num := by
  obtain ⟨hnumLow, hnumHigh⟩ := log2_bounds hnum
  obtain ⟨hdenLow, hdenHigh⟩ := log2_bounds hden
  have htwo : ((twoTo 53 : Nat) : ℚ) = 2 ^ (53 : Int) := by norm_num [twoTo]
  rw [exponentFor, htwo]
  dsimp only
  simp only [le_scaleDown_iff, htwo]
  have hmono : ∀ {a b : Int}, a ≤ b → (2 : ℚ) ^ a ≤ 2 ^ b :=
    fun h => zpow_le_zpow_right₀ (by norm_num) h
  have hpow : ∀ a b c : Int, (2 : ℚ) ^ a * 2 ^ b * 2 ^ c = 2 ^ (a + b + c) :=
    fun a b c => by rw [zpow_add₀ (by norm_num), zpow_add₀ (by norm_num)]
  have hpos : (0 : ℚ) < 2 ^ (53 : Int) * 2 ^ e := by positivity
  rw [lt_max_iff]
  generalize hguess : (num.log2 : Int) - den.log2 - 53 = guess
  have hbelow : e < guess → (2 : ℚ) ^ (53 : Int) * 2 ^ e * den ≤ num := by
    intro h
    calc (2 : ℚ) ^ (53 : Int) * 2 ^ e * den
        ≤ 2 ^ (53 : Int) * 2 ^ e * 2 ^ ((den.log2 : Int) + 1) :=
          mul_le_mul_of_nonneg_left hdenHigh.le hpos.le
      _ = 2 ^ (53 + e + ((den.log2 : Int) + 1)) := hpow _ _ _
      _ ≤ 2 ^ (num.log2 : Int) := hmono (by omega)
      _ ≤ num := hnumLow
  have habove : guess < e → ¬ (2 : ℚ) ^ (53 : Int) * 2 ^ e * den ≤ num := by
    intro h
    refine not_le.mpr ?_
    calc (num : ℚ) < 2 ^ ((num.log2 : Int) + 1) := hnumHigh
      _ ≤ 2 ^ (53 + e + (den.log2 : Int)) := hmono (by omega)
      _ = 2 ^ (53 : Int) * 2 ^ e * 2 ^ (den.log2 : Int) := (hpow _ _ _).symm
      _ ≤ 2 ^ (53 : Int) * 2 ^ e * den := mul_le_mul_of_nonneg_left hdenLow hpos.le
  rcases lt_trichotomy e guess with h | rfl | h
  · refine iff_of_true (.inr ?_) (hbelow h)
    split <;> omega
  · split
    · rename_i hcond
      exact iff_of_true (.inr (by omega)) hcond
    · rename_i hcond
      refine iff_of_false ?_ hcond
      omega
  · refine iff_of_false ?_ (habove h)
    split <;> omega

/-- A half goes up to an even number. -/
theorem le_roundDiv_iff {k num den : Nat} (hk : k % 2 = 0) (hden : 0 < den) :
    k ≤ roundDiv num den ↔ 2 * k * den ≤ 2 * num + den := by
  have hdivision := Nat.div_add_mod num den
  have hrest := Nat.mod_lt num hden
  rw [roundDiv]
  generalize num / den = q at *
  generalize num % den = r at *
  subst hdivision
  have hscaled : ∀ {a b : Nat}, a ≤ b → a * den ≤ b * den := fun h => Nat.mul_le_mul_right den h
  rcases Nat.lt_trichotomy k (q + 1) with h | rfl | h
  · have hle := hscaled (show 2 * k ≤ 2 * q by omega)
    have hexpand : 2 * q * den = 2 * (den * q) := by ring
    refine iff_of_true ?_ (by omega)
    split_ifs <;> omega
  · have hexpand : 2 * (q + 1) * den = 2 * (den * q) + 2 * den := by ring
    rw [hexpand]
    split_ifs <;> omega
  · have hle := hscaled (show 2 * (q + 2) ≤ 2 * k by omega)
    have hexpand : 2 * (q + 2) * den = 2 * (den * q) + 4 * den := by ring
    refine iff_of_false ?_ (by omega)
    split_ifs <;> omega

theorem roundDiv_le {k num den : Nat} (h : num < k * den) : roundDiv num den ≤ k := by
  have hquotient : num / den < k := Nat.div_lt_of_lt_mul (by rwa [Nat.mul_comm])
  rw [roundDiv]
  split_ifs <;> omega

/-- The middle between the largest number and the next power of two. -/
def limit : Nat := (twoTo 54 - 1) * twoTo 970

theorem cast_twoTo (n : Nat) : ((twoTo n : Nat) : ℚ) = 2 ^ (n : Int) := by
  simp [twoTo]

theorem twoTo_pos (n : Nat) : 0 < twoTo n :=
  Nat.two_pow_pos n

theorem twoTo_add (a b : Nat) : twoTo (a + b) = twoTo a * twoTo b :=
  Nat.pow_add 2 a b

/-- The mantissa of `num / den` before it is carried over. -/
def mantissaFor (num den : Nat) : Nat :=
  roundDiv (scaleDown num den (exponentFor num den)).1 (scaleDown num den (exponentFor num den)).2

theorem ofRatio_of_pos (negative : Bool) {num : Nat} (den : Nat) (hnum : 0 < num) :
    ofRatio negative num den =
      if mantissaFor num den = twoTo 53 then
        if maxExponent < exponentFor num den + 1 then infinite negative
        else finite negative (twoTo 52) (exponentFor num den + 1)
      else if maxExponent < exponentFor num den then infinite negative
      else finite negative (mantissaFor num den) (exponentFor num den) := by
  rw [ofRatio, if_neg hnum.ne', mantissaFor]
  dsimp only
  split_ifs <;> rfl

section Mantissa

variable {num den : Nat} (hnum : 0 < num) (hden : 0 < den)

include hnum hden

theorem mantissaFor_le : mantissaFor num den ≤ twoTo 53 := by
  have hiff := @lt_exponentFor_iff num den hnum hden (exponentFor num den) (le_max_left _ _)
  refine roundDiv_le (not_le.mp ?_)
  rw [le_scaleDown_iff, ← hiff]
  exact lt_irrefl _

/-- Where the exponent stands to the largest one is a matter of how large the quotient is. -/
theorem add_lt_exponentFor_iff (k : Nat) :
    ((970 + k : Nat) : Int) < exponentFor num den ↔ twoTo (53 + k) * (twoTo 970 * den) ≤ num := by
  have hpower : twoTo 53 * twoTo (970 + k) = twoTo (53 + k) * twoTo 970 := by
    simp only [twoTo_add]
    ring
  rw [lt_exponentFor_iff hnum hden (by unfold minExponent; omega), zpow_natCast, ← Nat.mul_assoc,
    ← hpower, ← Nat.cast_le (α := ℚ)]
  simp [twoTo]

/-- At the largest exponent the mantissa is carried over from the limit on. -/
theorem mantissaFor_of_max (h : exponentFor num den = maxExponent) :
    mantissaFor num den = twoTo 53 ↔ limit * den ≤ num := by
  have hdouble : scaleDown num den (exponentFor num den) = (num, 2 * (twoTo 970 * den)) := by
    have hpower : den * twoTo 971 = 2 * (twoTo 970 * den) := by
      rw [show twoTo 971 = twoTo 1 * twoTo 970 from twoTo_add 1 970]
      simp only [show twoTo 1 = 2 from rfl]
      ring
    rw [h, ← hpower]
    rfl
  have hpos : 0 < 2 * (twoTo 970 * den) :=
    Nat.mul_pos Nat.two_pos (Nat.mul_pos (twoTo_pos _) hden)
  have heven := @le_roundDiv_iff (twoTo 53) num _ (by decide) hpos
  have hle := mantissaFor_le hnum hden
  rw [mantissaFor, hdouble] at hle ⊢
  rw [limit, Nat.mul_assoc]
  obtain ⟨h53, h54⟩ : twoTo 53 = 9007199254740992 ∧ twoTo 54 = 18014398509481984 := by decide
  rw [h53] at hle heven ⊢
  rw [h54]
  generalize roundDiv num _ = m at *
  generalize twoTo 970 * den = x at *
  omega

end Mantissa

/-- What is nearest to a quotient is finite below the limit, and infinite from there on. -/
theorem ofRatio_cases (negative : Bool) (num : Nat) {den : Nat} (hden : 0 < den) :
    ofRatio negative num den = infinite negative ∧ limit * den ≤ num ∨
      (∃ m e, ofRatio negative num den = finite negative m e ∧ m ≤ twoTo 53 ∧ e ≤ maxExponent) ∧
        num < limit * den := by
  rcases Nat.eq_zero_or_pos num with rfl | hnum
  · refine .inr ⟨⟨0, minExponent, rfl, Nat.zero_le _, by decide⟩, ?_⟩
    exact Nat.mul_pos (by decide +kernel) hden
  · have hover := add_lt_exponentFor_iff hnum hden 1
    have hunder := add_lt_exponentFor_iff hnum hden 0
    have hcarry := mantissaFor_of_max hnum hden
    have hle := mantissaFor_le hnum hden
    rw [ofRatio_of_pos negative den hnum]
    rw [limit, Nat.mul_assoc] at hcarry ⊢
    obtain ⟨h52, h53, h54⟩ : twoTo 52 ≤ twoTo 53 ∧ twoTo 53 = 9007199254740992 ∧
        twoTo 54 = 18014398509481984 := by decide
    have hmax : maxExponent = 971 := rfl
    simp only [Nat.add_zero, Nat.reduceAdd, Nat.cast_ofNat, h53, h54, hmax] at *
    generalize twoTo 970 * den = x at *
    generalize exponentFor num den = e at *
    split_ifs with hm he he
    · refine .inl ⟨rfl, ?_⟩
      by_cases h : e = 971
      · exact (hcarry h).mp hm
      · omega
    · exact .inr ⟨⟨_, _, rfl, h52, by omega⟩, by omega⟩
    · exact .inl ⟨rfl, by omega⟩
    · refine .inr ⟨⟨_, _, rfl, hle, by omega⟩, ?_⟩
      by_cases h : e = 971
      · exact not_le.mp fun hnum => hm ((hcarry h).mpr hnum)
      · omega

/-- An integer has a number next to it below the limit. -/
theorem ofInt_cases (i : Int) :
    ofInt i = infinite (i < 0) ∧ limit ≤ i.natAbs ∨
      (∃ m e, ofInt i = finite (i < 0) m e ∧ m ≤ twoTo 53 ∧ e ≤ maxExponent) ∧
        i.natAbs < limit := by
  have hcases := ofRatio_cases (decide (i < 0)) i.natAbs Nat.one_pos
  rwa [Nat.mul_one] at hcases

/-- A share of a finite number is finite. -/
theorem scale_finite (negative : Bool) {q m : Nat} {e : Int} (hq : q < 4) (hm : m ≤ twoTo 53)
    (he : e ≤ maxExponent) : ∃ m' e', (finite negative m e).scale q 4 = finite negative m' e' := by
  rw [scale]
  have hpos := @scaleDown_pos (q * m) 4 (by decide) (-e)
  obtain ⟨-, hlimit⟩ | ⟨⟨m', e', heq, -⟩, -⟩ :=
    ofRatio_cases negative (scaleDown (q * m) 4 (-e)).1 hpos
  · rw [le_scaleDown_iff, limit, Nat.cast_mul, cast_twoTo 970] at hlimit
    have hpower : (2 : ℚ) ≤ 2 ^ ((970 : Nat) : Int) * 2 ^ (-e) * (4 : Nat) := by
      calc (2 : ℚ) = 2 ^ (1 : Int) := (zpow_one 2).symm
        _ ≤ 2 ^ (((970 : Nat) : Int) + -e + 2) :=
          zpow_le_zpow_right₀ (by norm_num) (by unfold maxExponent at he; omega)
        _ = 2 ^ ((970 : Nat) : Int) * 2 ^ (-e) * (4 : Nat) := by
          rw [zpow_add₀ (by norm_num), zpow_add₀ (by norm_num)]
          norm_num
    have hproduct : ((q * m : Nat) : ℚ) ≤ (3 * twoTo 53 : Nat) :=
      Nat.cast_le.mpr (Nat.mul_le_mul (by omega) hm)
    have hvalues : ((twoTo 54 - 1 : Nat) : ℚ) = 18014398509481983 ∧
        ((3 * twoTo 53 : Nat) : ℚ) = 27021597764222976 := by
      constructor <;> norm_num [twoTo]
    rw [hvalues.1] at hlimit
    rw [hvalues.2] at hproduct
    rw [mul_assoc 18014398509481983, mul_assoc 18014398509481983] at hlimit
    linarith [mul_le_mul_of_nonneg_left hpower (by norm_num : (0 : ℚ) ≤ 18014398509481983)]
  · exact ⟨m', e', heq⟩

end DartScaffold.Binary64
