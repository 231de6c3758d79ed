import DartScaffold.Decimal.Binary64

/-!
The fewest decimal digits that read back as a given number. All reals between the halfway points
to the two neighbours of `mantissa · 2 ^ exponent` round to it, the halfway points included when
the mantissa is even. On the grid of `n` digits the two points around the number are tested, for
`n = 1, 2, …, 17`; the first grid with a hit wins, and of two hits the nearer.
-/

namespace DartScaffold

/-- The decimal number `0.d₁d₂… · 10 ^ point`, by its digits `d₁d₂…`. -/
structure Digits where
  digits : List Nat
  point : Int
  deriving DecidableEq, Repr

namespace Binary64

/-- A number and the ends of the interval that rounds to it, over one denominator. -/
structure Interval where
  low : Nat
  value : Nat
  high : Nat
  den : Nat
  closed : Bool

def interval (m : Nat) (e : Int) : Interval :=
  let below := if m = twoTo 52 ∧ minExponent < e then 1 else 2
  let (scale, den) := if 0 ≤ e then (twoTo e.toNat, 4) else (1, 4 * twoTo (-e).toNat)
  { low := (4 * m - below) * scale
    value := 4 * m * scale
    high := (4 * m + 2) * scale
    den := den
    closed := m % 2 = 0 }

/-- The interval holds `num / den`. -/
def Interval.contains (i : Interval) (num den : Nat) : Bool :=
  if i.closed then i.low * den ≤ num * i.den && num * i.den ≤ i.high * den
  else i.low * den < num * i.den && num * i.den < i.high * den

/-- The point of the grid of step `10 ^ k` that stands for the interval, if one lies in it. -/
def gridPoint? (i : Interval) (k : Int) : Option Nat :=
  let (up, down) := if 0 ≤ k then (tenTo k.toNat, 1) else (1, tenTo (-k).toNat)
  let p := i.value * down / (i.den * up)
  let r := i.value * down % (i.den * up)
  let lowHit := i.contains (p * up) down
  let highHit := i.contains ((p + 1) * up) down
  if lowHit && highHit then
    if 2 * r < i.den * up then some p
    else if i.den * up < 2 * r then some (p + 1)
    else if p % 2 = 0 then some p else some (p + 1)
  else if lowHit then some p
  else if highHit then some (p + 1)
  else none

/-- The `e` with `10 ^ e ≤ num / den < 10 ^ (e + 1)`, found from `start` upward. -/
def decade (num den : Nat) : Nat → Int → Int
  | 0, e => e
  | fuel + 1, e =>
    let (up, down) := if 0 ≤ e + 1 then (tenTo (e + 1).toNat, 1) else (1, tenTo (-(e + 1)).toNat)
    if up * den ≤ num * down then decade num den fuel (e + 1) else e

/-- A decade not above that of `num / den`, and at most two below. -/
def decadeBelow (num den : Nat) : Int :=
  ((num.log2 : Int) - den.log2 - 1) * 30103 / 100000 - 1

/-- Grids of `n + 1` digits and more; `fuel` of them are tried. -/
def searchGrids (i : Interval) (top : Int) : Nat → Nat → Nat × Int
  | 0, _ => (0, top)
  | fuel + 1, n =>
    match gridPoint? i (top - n) with
    | some p => (p, top - n)
    | none => searchGrids i top fuel (n + 1)

def toDigitList (n : Nat) : List Nat :=
  (Nat.toDigits 10 n).map fun c => c.toNat - 48

/-- The shortest digits of a positive number. -/
def shortest (m : Nat) (e : Int) : Digits :=
  let i := interval m e
  let top := decade i.value i.den 8 (decadeBelow i.value i.den)
  let (p, k) := searchGrids i top 17 0
  let ds := toDigitList p
  { digits := (ds.reverse.dropWhile (· = 0)).reverse
    point := k + ds.length }

/-- Sixteen places are the most that are written positionally, and four zeros after the point. -/
def positional (point : Int) : Bool :=
  -4 < point && point ≤ 16

def digitText (ds : List Nat) : String :=
  String.ofList (ds.map Nat.digitChar)

/-- An exponent has a sign and at least two digits. -/
def exponentText (e : Int) : String :=
  let n := toString e.natAbs
  (if e < 0 then "e-" else "e+") ++ (if n.length < 2 then "0" ++ n else n)

/-- The digits in positional notation, or with an exponent where that would grow too long. -/
def Digits.text (d : Digits) : String :=
  if positional d.point then
    if d.point ≤ 0 then
      "0." ++ digitText (List.replicate (-d.point).toNat 0 ++ d.digits)
    else
      let n := d.point.toNat
      let whole := d.digits.take n ++ List.replicate (n - d.digits.length) 0
      let fraction := d.digits.drop n
      digitText whole ++ "." ++ digitText (if fraction.isEmpty then [0] else fraction)
  else
    let fraction := d.digits.drop 1
    digitText (d.digits.take 1) ++
      (if fraction.isEmpty then "" else "." ++ digitText fraction) ++ exponentText (d.point - 1)

def text : Binary64 → String
  | nan => "nan"
  | infinite negative => if negative then "-inf" else "inf"
  | finite negative 0 _ => if negative then "-0.0" else "0.0"
  | finite negative m e => (if negative then "-" else "") ++ Digits.text (shortest m e)

end Binary64

end DartScaffold
