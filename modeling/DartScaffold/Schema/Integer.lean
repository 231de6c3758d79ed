import DartScaffold.Text.Blank

/-!
Whole numbers in text form. The plain form is that of JSON: an optional minus before `0` or before
digits that do not begin with it. Around it white space, a sign, zeros in front, single underscores
between digits and zeros after a point are put up with.
-/

namespace DartScaffold.Schema

inductive IntegerReading where
  | whole (value : Int)
  /-- More digits than any number may have. -/
  | tooLong
  | unreadable
  deriving DecidableEq, Repr

/-- A number has at most this many digits. -/
def integerLimit : Nat := 4300

def naturalOf (digits : List Char) : Nat :=
  digits.foldl (fun n c => n * 10 + (c.toNat - 48)) 0

/-- Digits that do not begin with `0`, after the sign. -/
def readDigits (negative : Bool) (s : List Char) : IntegerReading :=
  let digits := s.takeWhile Char.isDigit
  if digits.isEmpty then .unreadable
  else if integerLimit < digits.length then .tooLong
  else if digits.length < s.length then .unreadable
  else .whole (if negative then -naturalOf digits else naturalOf digits)

/-- A number in its plain form. -/
def plainInteger (s : List Char) : IntegerReading :=
  let (negative, s) := match s with
    | '-' :: rest => (true, rest)
    | s => (false, s)
  match s with
  | ['0'] => .whole 0
  | '0' :: _ => .unreadable
  | s => readDigits negative s

/-- White space in the narrow sense, without the information separators. -/
def isPadding (c : Char) : Bool :=
  Text.isBlank c && !(0x1c ≤ c.toNat && c.toNat ≤ 0x1f)

/-- The text after the zeros in front of it and the underscores among them; `last` is the one
before. The last zero stays where no digit follows. -/
def afterZeros? (last : Char) : List Char → Option (List Char)
  | [] => some [last]
  | c :: rest =>
    if c = '0' ∨ c = '_' then afterZeros? c rest
    else if c.isDigit ∨ c = '-' then some (c :: rest)
    else if c = '.' then some (last :: c :: rest)
    else none

def dropLeadingZeros? : List Char → Option (List Char)
  | [] => none
  | c :: rest =>
    if c = '0' then afterZeros? c rest
    else if c.isDigit ∨ c = '-' then some (c :: rest)
    else none

/-- Takes off a point with nothing but zeros after it, at least one. -/
def dropZeroFraction (s : List Char) : List Char :=
  match s.dropWhile (· != '.') with
  | '.' :: '0' :: rest => if rest.all (· == '0') then s.takeWhile (· != '.') else s
  | _ => s

def hasDoubleUnderscore : List Char → Bool
  | '_' :: '_' :: _ => true
  | _ :: rest => hasDoubleUnderscore rest
  | [] => false

/-- Takes the underscores out unless one of them is at an end or beside another. -/
def dropUnderscores (s : List Char) : List Char :=
  if s.head? = some '_' ∨ s.getLast? = some '_' ∨ hasDoubleUnderscore s then s
  else s.filter (· != '_')

/-- The plain form of a text in one of the forms that are put up with. A plus has no minus after
it. -/
def plainForm? (s : List Char) : Option (List Char) :=
  match Text.dropWhileEnd isPadding (s.dropWhile isPadding) with
  | '+' :: '-' :: _ => none
  | '+' :: rest => unsigned? rest
  | '-' :: rest => (unsigned? rest).map ('-' :: ·)
  | s => unsigned? s
where
  unsigned? (s : List Char) : Option (List Char) :=
    (dropLeadingZeros? s).map fun s => dropUnderscores (dropZeroFraction s)

/-- The number that a text stands for. Only a text in plain form is refused for its length. -/
def readInteger (text : String) : IntegerReading :=
  match plainInteger text.toList with
  | .unreadable =>
    match (plainForm? text.toList).map plainInteger with
    | some (.whole i) => .whole i
    | _ => .unreadable
  | reading => reading

end DartScaffold.Schema
