import DartScaffold.Text.Blank
import DartScaffold.Text.Digit

/-!
Texts that denote a date or a date with a time: `2024-05-01`, `2024-05-01T10:00:00.123Z`,
`2024-05-01 10:00+0200`. After the date each part may be absent, and a line feed may end the text.
-/

namespace DartScaffold.Shape

open Text (isBlank isDecimalDigit)

/-- The text after `n` decimal digits. -/
def afterDigits? : Nat → List Char → Option (List Char)
  | 0, s => some s
  | _ + 1, [] => none
  | n + 1, c :: s => if isDecimalDigit c then afterDigits? n s else none

def afterChar? (c : Char) : List Char → Option (List Char)
  | [] => none
  | d :: s => if d = c then some s else none

def afterDate? (s : List Char) : Option (List Char) := do
  let s ← afterDigits? 4 s
  let s ← afterChar? '-' s
  let s ← afterDigits? 2 s
  let s ← afterChar? '-' s
  afterDigits? 2 s

/-- Hours and minutes. -/
def afterClock? (s : List Char) : Option (List Char) := do
  let s ← afterDigits? 2 s
  let s ← afterChar? ':' s
  afterDigits? 2 s

def afterSeconds (s : List Char) : List Char :=
  (do afterDigits? 2 (← afterChar? ':' s)).getD s

/-- One blank or a `T` may stand before the time. -/
def afterSeparator : List Char → List Char
  | c :: s => if isBlank c ∨ c = 'T' then s else c :: s
  | [] => []

def afterTime (s : List Char) : List Char :=
  match afterClock? (afterSeparator s) with
  | some rest => afterSeconds rest
  | none => s

def afterFraction : List Char → List Char
  | '.' :: c :: s => if isDecimalDigit c then s.dropWhile isDecimalDigit else '.' :: c :: s
  | s => s

/-- Hours and minutes of an offset, with or without a colon. -/
def afterOffset? (s : List Char) : Option (List Char) := do
  let s ← afterDigits? 2 s
  afterDigits? 2 ((afterChar? ':' s).getD s)

def afterZone : List Char → List Char
  | 'Z' :: s => s
  | c :: s => if c = '+' ∨ c = '-' then (afterOffset? s).getD (c :: s) else c :: s
  | [] => []

def isDateText (text : String) : Bool :=
  match afterDate? text.toList with
  | none => false
  | some s =>
    match afterZone (afterFraction (afterTime s)) with
    | [] => true
    | ['\n'] => true
    | _ => false

end DartScaffold.Shape
