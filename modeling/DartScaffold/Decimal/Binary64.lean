/-!
Floating-point numbers of 64 bits as exact values: a finite one is `± mantissa · 2 ^ exponent`.
`ofRatio` rounds a quotient to the nearest of them, a half going to the even mantissa, and
`ofDecimal` reads decimal notation through it.
-/

namespace DartScaffold

inductive Binary64 where
  | nan
  | infinite (negative : Bool)
  | finite (negative : Bool) (mantissa : Nat) (exponent : Int)
  deriving DecidableEq, Repr

namespace Binary64

/-- The power `2 ^ n`. -/
def twoTo (n : Nat) : Nat := Nat.pow 2 n

/-- The power `10 ^ n`. -/
def tenTo (n : Nat) : Nat := Nat.pow 10 n

/-- The exponent of the numbers below `2 ^ -1022`. -/
def minExponent : Int := -1074

def maxExponent : Int := 971

/-- The quotient `num / den` rounded to an integer, a half to the even neighbour. -/
def roundDiv (num den : Nat) : Nat :=
  let q := num / den
  let r := num % den
  if 2 * r < den then q
  else if den < 2 * r then q + 1
  else if q % 2 = 0 then q else q + 1

/-- The value `num / (den · 2 ^ e)` as a fraction of naturals. -/
def scaleDown (num den : Nat) (e : Int) : Nat × Nat :=
  if 0 ≤ e then (num, den * twoTo e.toNat) else (num * twoTo (-e).toNat, den)

/-- The exponent at which the mantissa of `num / den` has 53 bits, and never below the least. -/
def exponentFor (num den : Nat) : Int :=
  let guess : Int := (num.log2 : Int) - den.log2 - 53
  let (n, d) := scaleDown num den guess
  max minExponent (if twoTo 53 * d ≤ n then guess + 1 else guess)

/-- The number nearest to `num / den`. -/
def ofRatio (negative : Bool) (num den : Nat) : Binary64 :=
  if num = 0 then finite negative 0 minExponent
  else
    let e := exponentFor num den
    let (n, d) := scaleDown num den e
    let m := roundDiv n d
    let (m, e) := if m = twoTo 53 then (twoTo 52, e + 1) else (m, e)
    if maxExponent < e then infinite negative else finite negative m e

/-- The number nearest to `digits · 10 ^ e`. Outside `10 ^ ±400` the answer is known beforehand,
whatever the exponent. -/
def ofDecimal (negative : Bool) (digits : Nat) (e : Int) : Binary64 :=
  let magnitude : Int := (digits.log2 : Int) * 30103 / 100000 + e
  if digits = 0 then finite negative 0 minExponent
  else if 400 < magnitude then infinite negative
  else if magnitude < -400 then finite negative 0 minExponent
  else if 0 ≤ e then ofRatio negative (digits * tenTo e.toNat) 1
  else ofRatio negative digits (tenTo (-e).toNat)

def isZero : Binary64 → Bool
  | finite _ 0 _ => true
  | _ => false

/-- The integer that a number without fractional part stands for. -/
def toInt? : Binary64 → Option Int
  | finite negative m e =>
    let sign (n : Nat) : Int := if negative then -n else n
    if 0 ≤ e then some (sign (m * twoTo e.toNat))
    else
      let d := twoTo (-e).toNat
      if m % d = 0 then some (sign (m / d)) else none
  | _ => none

/-- The number nearest to an integer. -/
def ofInt (i : Int) : Binary64 :=
  ofRatio (i < 0) i.natAbs 1

/-- The number nearest to the product with `num / den`. -/
def scale (num den : Nat) : Binary64 → Binary64
  | finite negative m e =>
    let (n, d) := scaleDown (num * m) den (-e)
    ofRatio negative n d
  | x => x

/-- The least integer that is not below a finite number. -/
def ceil? : Binary64 → Option Int
  | finite negative m e =>
    let (n, d) := scaleDown m 1 (-e)
    some (if negative then -(n / d : Nat) else ((n + d - 1) / d : Nat))
  | _ => none

end Binary64

end DartScaffold
