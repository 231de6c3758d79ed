import DartScaffold.CommandLine.Flag
import DartScaffold.Text.Digit

/-!
What a single word of the command line is, before it is known what the word before it wants.
-/

namespace DartScaffold.CommandLine

inductive Word where
  | value (text : String)
  /-- A flag in its long spelling, with the text after an equals sign. -/
  | long (flag : Flag) (attached : Option String)
  /-- A one-letter flag with what follows it in the word: other letters, or such after an equals
  sign. -/
  | short (flag : Flag) (attached : Option String)
  /-- Two dashes; every word after them is a value. -/
  | separator
  | ambiguous (text : String)
  | unknown (text : String)
  deriving DecidableEq, Repr

/-- The text before and after the first equals sign. -/
def splitAtEquals (text : List Char) : List Char × Option (List Char) :=
  match text.dropWhile (· != '=') with
  | [] => (text, none)
  | _ :: rest => (text.takeWhile (· != '='), some rest)

/-- A text without the line feed that ends it. -/
def dropLineFeed (text : List Char) : List Char :=
  if text.getLast? = some '\n' then text.dropLast else text

/-- Digits with at most one point before the last of them, after a dash. A line feed may end the
text. -/
def isNegativeNumber : List Char → Bool
  | '-' :: text =>
    let text := dropLineFeed text
    match text.dropWhile Text.isDecimalDigit with
    | [] => !text.isEmpty
    | '.' :: rest => !rest.isEmpty && rest.all Text.isDecimalDigit
    | _ => false
  | _ => false

namespace Word

/-- A word with a dash that is no flag: numbers and texts with a space are values all the same. -/
def dashed (text : List Char) : Word :=
  if isNegativeNumber text || text.contains ' ' then .value (String.ofList text)
  else .unknown (String.ofList text)

def ofLongText (text : List Char) : Word :=
  let (name, attached) := splitAtEquals text
  let attached := attached.map String.ofList
  match Flag.ofLong? name with
  | some flag => .long flag attached
  | none =>
    match Flag.completions name with
    | [] => dashed text
    | [flag] => .long flag attached
    | _ => .ambiguous (String.ofList text)

def ofText (text : String) : Word :=
  match text.toList with
  | ['-', '-'] => .separator
  | '-' :: '-' :: _ => ofLongText text.toList
  | ['-'] => .value text
  | '-' :: letter :: rest =>
    match Flag.ofShort? letter, rest with
    | some flag, [] => .short flag none
    | some flag, '=' :: rest => .short flag (some (String.ofList rest))
    | some flag, rest => .short flag (some (String.ofList rest))
    | none, _ => dashed text.toList
  | _ => .value text

/-- The words of a command line. -/
def ofTexts : List String → List Word
  | [] => []
  | text :: rest =>
    match ofText text with
    | .separator => .separator :: rest.map .value
    | word => word :: ofTexts rest

end Word

end DartScaffold.CommandLine
