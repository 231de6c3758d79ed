/-!
Surrogates: code units that are characters only in pairs. An escape can name a half of a pair alone;
where a text of characters is made all the same, a character from a block that the text does not use
stands for it. `surrogate_standIn` says that a stand-in gives its surrogate back.
-/

namespace DartScaffold.Text

def isHighSurrogate (u : Nat) : Bool := 0xd800 ≤ u && u ≤ 0xdbff

def isLowSurrogate (u : Nat) : Bool := 0xdc00 ≤ u && u ≤ 0xdfff

def isSurrogate (u : Nat) : Bool := isHighSurrogate u || isLowSurrogate u

/-- The code points of a list of code units. A surrogate without its partner stays what it is. -/
def codePoints : List Nat → List Nat
  | [] => []
  | [u] => [u]
  | u :: v :: rest =>
    if isHighSurrogate u && isLowSurrogate v then
      (0x10000 + (u - 0xd800) * 0x400 + (v - 0xdc00)) :: codePoints rest
    else u :: codePoints (v :: rest)

/-- There are this many surrogates, and as many characters in a block. -/
def blockSize : Nat := 0x800

def blockOf (point : Nat) : Nat := point / blockSize

/-- The blocks of the private planes, then those of the planes without any assigned character. No
character in them is a letter, a numeral or a blank. -/
def spareBlocks : List Nat :=
  List.range' (blockOf 0xf0000) 64 ++ List.range' (blockOf 0x40000) 320

/-- Two different blocks that hold none of the code points, unless these fill all blocks but one. -/
def freshBlocks (points : List Nat) : Nat × Nat :=
  match spareBlocks.filter fun block => points.all fun p => blockOf p != block with
  | first :: second :: _ => (first, second)
  | _ => (blockOf 0xf0000, blockOf 0xf0800)

/-- The character of a block that stands for a surrogate. -/
def standIn (block u : Nat) : Char := Char.ofNat (block * blockSize + u % blockSize)

/-- The surrogate that a stand-in stands for. -/
def surrogate (c : Char) : Nat := 0xd800 + c.toNat % blockSize

theorem toNat_standIn {block u : Nat} (h : block ∈ spareBlocks) :
    (standIn block u).toNat = block * blockSize + u % blockSize := by
  have bounds : 0x80 ≤ block ∧ block < 0x220 := by
    simp only [spareBlocks, blockOf, blockSize, List.mem_append, List.mem_range'_1] at h
    omega
  have small : u % blockSize < 0x800 := Nat.mod_lt u (by decide)
  rw [standIn, Char.ofNat, dif_pos (Or.inr ⟨by simp only [blockSize] at *; omega,
    by simp only [blockSize] at *; omega⟩)]
  rfl

theorem surrogate_standIn {block u : Nat} (h : block ∈ spareBlocks) (hu : isSurrogate u = true) :
    surrogate (standIn block u) = u := by
  simp only [isSurrogate, isHighSurrogate, isLowSurrogate, Bool.or_eq_true, Bool.and_eq_true,
    decide_eq_true_eq] at hu
  rw [surrogate, toNat_standIn h]
  simp only [blockSize]
  omega

/-- The first surrogates of a text that stand side by side. -/
structure SurrogateRun where
  first : Nat
  /-- This many characters are before them. -/
  start : Nat
  length : Nat
  deriving DecidableEq, Repr

end DartScaffold.Text
