import DartScaffold.Json.Basic
import DartScaffold.Text.Twin

/-!
Reading JSON text. Beside the standard grammar the words `NaN`, `Infinity` and `-Infinity` are
numbers. A repeated key keeps its first place and its last value, and the escapes of a surrogate
pair make one character. What stands for a surrogate without its partner is for the caller to say:
`read` puts U+FFFD there, `readTwin` reads twice. Reading stops at the first fault, and one bracket
too many inside another is a fault at that bracket, whatever follows it.
-/

namespace DartScaffold.Json

/-- Why a text is not read. -/
inductive Fault where
  | malformed
  /-- An integer has this many digits, which is more than are read. -/
  | hugeInteger (digits : Nat)
  /-- The container lies inside as many others as are read. -/
  | tooDeep (container : Container)
  deriving DecidableEq, Repr

/-- An integer is read if it has at most this many digits. -/
def digitLimit : Nat := 4300

/-- This many arrays and objects are read inside one another. A thousand calls may be open at once, each
of these is one, and fifteen are open where a unit has a sample's text read. -/
def depthLimit : Nat := 985

def orMalformed {α : Type} : Option α → Except Fault α
  | some a => .ok a
  | none => .error .malformed

def isSpace (c : Char) : Bool :=
  c == ' ' || c == '\t' || c == '\n' || c == '\r'

def skipSpace (s : List Char) : List Char :=
  s.dropWhile isSpace

def hexValue? (c : Char) : Option Nat :=
  if c.isDigit then some (c.toNat - 48)
  else if 'a' ≤ c ∧ c ≤ 'f' then some (c.toNat - 87)
  else if 'A' ≤ c ∧ c ≤ 'F' then some (c.toNat - 55)
  else none

def hexUnit? (a b c d : Char) : Option Nat := do
  let a ← hexValue? a
  let b ← hexValue? b
  let c ← hexValue? c
  let d ← hexValue? d
  return ((a * 16 + b) * 16 + c) * 16 + d

/-- The character that a one-letter escape stands for. -/
def escaped? : Char → Option Char
  | '"' => some '"'
  | '\\' => some '\\'
  | '/' => some '/'
  | 'b' => some '\x08'
  | 'f' => some '\x0c'
  | 'n' => some '\n'
  | 'r' => some '\r'
  | 't' => some '\t'
  | _ => none

/-- The code units of a string up to its closing quote, and the text after that quote. -/
def readUnits : List Char → Option (List Nat × List Char)
  | [] => none
  | '"' :: rest => some ([], rest)
  | '\\' :: 'u' :: a :: b :: c :: d :: rest => do
    let unit ← hexUnit? a b c d
    let (units, rest) ← readUnits rest
    return (unit :: units, rest)
  | '\\' :: c :: rest => do
    let c ← escaped? c
    let (units, rest) ← readUnits rest
    return (c.toNat :: units, rest)
  | c :: rest =>
    if c.toNat < 0x20 then none
    else do
      let (units, rest) ← readUnits rest
      return (c.toNat :: units, rest)

/-- The character of a code point, where `standIn` gives those of surrogates. -/
def spell (standIn : Nat → Char) (point : Nat) : Char :=
  if Text.isSurrogate point then standIn point else Char.ofNat point

def readString (standIn : Nat → Char) (s : List Char) : Option (String × List Char) :=
  (readUnits s).map fun (units, rest) =>
    (String.ofList ((Text.codePoints units).map (spell standIn)), rest)

def digitsValue (ds : List Char) : Nat :=
  ds.foldl (fun n c => n * 10 + (c.toNat - 48)) 0

/-- The digits before the point: `0`, or digits that do not begin with it. -/
def readWhole : List Char → Option (List Char × List Char)
  | '0' :: rest => some (['0'], rest)
  | s =>
    match s.takeWhile Char.isDigit with
    | [] => none
    | ds => some (ds, s.dropWhile Char.isDigit)

/-- The digits after a point, if a point and a digit follow. -/
def readFraction : List Char → Option (List Char × List Char)
  | '.' :: rest =>
    match rest.takeWhile Char.isDigit with
    | [] => none
    | ds => some (ds, rest.dropWhile Char.isDigit)
  | _ => none

def readExponentDigits (negative : Bool) (s : List Char) : Option (Int × List Char) :=
  match s.takeWhile Char.isDigit with
  | [] => none
  | ds =>
    let n : Int := digitsValue ds
    some (if negative then -n else n, s.dropWhile Char.isDigit)

/-- The exponent, if a mark and a digit follow. -/
def readExponent : List Char → Option (Int × List Char)
  | c :: rest =>
    if c = 'e' ∨ c = 'E' then
      match rest with
      | '-' :: rest => readExponentDigits true rest
      | '+' :: rest => readExponentDigits false rest
      | _ => readExponentDigits false rest
    else none
  | [] => none

/-- A number without point and exponent is an integer. -/
def readMagnitude (negative : Bool) (s : List Char) : Except Fault (Json × List Char) := do
  let (whole, rest) ← orMalformed (readWhole s)
  match readFraction rest with
  | none =>
    match readExponent rest with
    | none =>
      if digitLimit < whole.length then throw (.hugeInteger whole.length)
      let n : Int := digitsValue whole
      return (int (if negative then -n else n), rest)
    | some (e, rest) => return (float (Binary64.ofDecimal negative (digitsValue whole) e), rest)
  | some (fraction, rest) =>
    let digits := digitsValue (whole ++ fraction)
    let (e, rest) := (readExponent rest).getD (0, rest)
    return (float (Binary64.ofDecimal negative digits (e - fraction.length)), rest)

def readNumber : List Char → Except Fault (Json × List Char)
  | '-' :: rest => readMagnitude true rest
  | s => readMagnitude false s

/-- The rest of `s` after `word`. -/
def readWord : List Char → List Char → Option (List Char)
  | [], s => some s
  | _, [] => none
  | w :: word, c :: s => if w = c then readWord word s else none

def constants : List (List Char × Json) :=
  [("null".toList, null), ("true".toList, bool true), ("false".toList, bool false),
   ("NaN".toList, float .nan), ("Infinity".toList, float (.infinite false)),
   ("-Infinity".toList, float (.infinite true))]

def readConstant (s : List Char) : Option (Json × List Char) :=
  constants.findSome? fun (word, value) => (readWord word s).map (value, ·)

section

variable (standIn : Nat → Char)

mutual

/-- A value at the start of a text that lies inside `depth` containers, and the text after it. -/
def readValue : Nat → Nat → List Char → Except Fault (Json × List Char)
  | 0, _, _ => .error .malformed
  | fuel + 1, depth, s =>
    match s with
    | '"' :: rest => (orMalformed (readString standIn rest)).map fun (text, rest) => (str text, rest)
    | '[' :: rest =>
      if depthLimit ≤ depth then .error (.tooDeep .array)
      else match skipSpace rest with
        | ']' :: rest => .ok (arr [], rest)
        | rest => (readItems fuel (depth + 1) rest).map fun (items, rest) => (arr items, rest)
    | '{' :: rest =>
      if depthLimit ≤ depth then .error (.tooDeep .object)
      else match skipSpace rest with
        | '}' :: rest => .ok (obj [], rest)
        | rest =>
          (readEntries fuel (depth + 1) rest []).map fun (entries, rest) => (obj entries, rest)
    | _ =>
      match readConstant s with
      | some found => .ok found
      | none => readNumber s

def readItems : Nat → Nat → List Char → Except Fault (List Json × List Char)
  | 0, _, _ => .error .malformed
  | fuel + 1, depth, s => do
    let (item, rest) ← readValue fuel depth s
    match skipSpace rest with
    | ']' :: rest => return ([item], rest)
    | ',' :: rest =>
      let (items, rest) ← readItems fuel depth (skipSpace rest)
      return (item :: items, rest)
    | _ => throw .malformed

def readEntries : Nat → Nat → List Char → Entries → Except Fault (Entries × List Char)
  | 0, _, _, _ => .error .malformed
  | fuel + 1, depth, s, entries =>
    match s with
    | '"' :: rest => do
      let (key, rest) ← orMalformed (readString standIn rest)
      match skipSpace rest with
      | ':' :: rest =>
        let (value, rest) ← readValue fuel depth (skipSpace rest)
        let entries := entries.put key value
        match skipSpace rest with
        | '}' :: rest => return (entries, rest)
        | ',' :: rest => readEntries fuel depth (skipSpace rest) entries
        | _ => throw .malformed
      | _ => throw .malformed
    | _ => .error .malformed

end

end

/-- The value that a whole text denotes, with stand-ins for surrogates without their partners. -/
def readWith (standIn : Nat → Char) (text : String) : Except Fault Json := do
  let s := skipSpace text.toList
  let (value, rest) ← readValue standIn (2 * s.length + 1) 0 s
  if (skipSpace rest).isEmpty then return value else throw .malformed

def read (text : String) : Except Fault Json :=
  readWith (fun _ => '\ufffd') text

def read? (text : String) : Option Json :=
  (read text).toOption

/-- The code points of all strings of a text. -/
def stringPoints : Nat → List Char → List Nat
  | 0, _ | _, [] => []
  | fuel + 1, '"' :: rest =>
    match readUnits rest with
    | some (units, rest) => Text.codePoints units ++ stringPoints fuel rest
    | none => []
  | fuel + 1, _ :: rest => stringPoints fuel rest

/-- The value that a whole text denotes, read twice if it has lone surrogates. -/
def readTwin (text : String) : Except Fault (Twin Json) :=
  let s := text.toList
  let points := stringPoints s.length s
  if points.any Text.isSurrogate then
    let (first, second) := Text.freshBlocks points
    return .apart (← readWith (Text.standIn first) text) (← readWith (Text.standIn second) text)
  else (read text).map .same

end DartScaffold.Json
