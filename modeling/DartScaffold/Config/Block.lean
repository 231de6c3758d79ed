import DartScaffold.Json.Reader
import DartScaffold.Text.Lines

/-!
The block style of YAML, as configuration files use it. A line belongs to the nearest line above it
that is indented less; what stands on one line is a plain scalar, a name for a value, or written in
the flow style that YAML shares with JSON.
-/

namespace DartScaffold.Config.Block

/-- A line and the lines that belong to it. -/
inductive Tree where
  | node (indent : Nat) (text : List Char) (below : List Tree)

/-- The text before a comment, which begins with a `#` that no other character touches from the
left. -/
def beforeComment (atStart : Bool) : List Char → List Char
  | [] => []
  | c :: rest =>
    if c = '#' ∧ atStart then [] else c :: beforeComment (c == ' ') rest

/-- The parts of a line with their columns. The dash of a list item stands for itself, and what
follows it counts as a line of its own. -/
def partsOf (column : Nat) : List Char → List (Nat × List Char)
  | [] => []
  | ' ' :: rest => partsOf (column + 1) rest
  | ['-'] => [(column, ['-'])]
  | '-' :: ' ' :: rest => (column, ['-']) :: partsOf (column + 2) rest
  | text => [(column, text)]

def trimEnd (text : List Char) : List Char :=
  (text.reverse.dropWhile (· == ' ')).reverse

/-- Whether a line belongs to the line above. The items of a list may stand as far left as the
key that has the list. -/
def Tree.isBelow (indent : Nat) (text : List Char) : Tree → Bool
  | .node i t _ => indent < i || (i == indent && t == ['-'] && text != ['-'])

/-- Puts a line above others. -/
def grow (line : Nat × List Char) (following : List Tree) : List Tree :=
  let (below, rest) := following.span (Tree.isBelow line.1 line.2)
  .node line.1 line.2 below :: rest

def treesOf (text : String) : List Tree :=
  let lines := (Text.splitOnChar '\n' text.toList).map fun line =>
    partsOf 0 (trimEnd (beforeComment true line))
  lines.flatten.foldr grow []

/-- A key and what follows its colon. -/
def keyOf? : List Char → Option (List Char × List Char)
  | [] => none
  | [':'] => some ([], [])
  | ':' :: ' ' :: rest => some ([], rest.dropWhile (· == ' '))
  | c :: rest => (keyOf? rest).map fun (key, value) => (c :: key, value)

def nullWords : List String := ["~", "null", "Null", "NULL"]

def trueWords : List String := ["yes", "Yes", "YES", "true", "True", "TRUE", "on", "On", "ON"]

def falseWords : List String := ["no", "No", "NO", "false", "False", "FALSE", "off", "Off", "OFF"]

/-- The value of a scalar without quotes. -/
def plainValue (text : String) : Json :=
  if nullWords.contains text then .null
  else if trueWords.contains text then .bool true
  else if falseWords.contains text then .bool false
  else if text.toList.all fun c => c.isDigit || c == '-' || c == '.' then
    (Json.read? text).getD (.str text)
  else .str text

/-- The values that have been named so far, the latest first. -/
abbrev Named := List (List Char × Json)

abbrev Reading := StateT Named Option

/-- What stands on one line. -/
def flowValue (text : List Char) : Reading Json := fun named =>
  match text with
  | '*' :: name => (named.lookup name).map (·, named)
  | c :: _ =>
    if "[\x7b\"".toList.contains c then (Json.read? (String.ofList text)).map (·, named)
    else if "]\x7d'&!|>%@\x60".toList.contains c || (keyOf? text).isSome then none
    else some (plainValue (String.ofList text), named)
  | [] => some (.null, named)

/-- The name that a text gives to the value after it, and what stands there. -/
def nameOf : List Char → Option (List Char) × List Char
  | '&' :: rest =>
    (some (rest.takeWhile (· != ' ')), (rest.dropWhile (· != ' ')).dropWhile (· == ' '))
  | text => (none, text)

def remember (name : Option (List Char)) (value : Json) : Reading Json := fun named =>
  match name with
  | some name => some (value, (name, value) :: named)
  | none => some (value, named)

/-- What a line contributes to the value that it is part of. -/
inductive Part where
  | item (value : Json)
  | entry (key : String) (value : Json)
  | whole (value : Json)

def Part.item? : Part → Option Json
  | item value => some value
  | _ => none

def Part.entry? : Part → Option (String × Json)
  | entry key value => some (key, value)
  | _ => none

/-- The value that the parts make up: a list, a mapping, or what stands on a single line. -/
def assemble (parts : List Part) : Option Json :=
  match parts with
  | [] => some .null
  | [.whole value] => some value
  | .item _ :: _ => (parts.mapM Part.item?).map .arr
  | .entry _ _ :: _ => (parts.mapM Part.entry?).map fun entries =>
    .obj (entries.foldl (fun found (key, value) => Entries.put found key value) [])
  | _ => none

/-- Lines that belong to the same line start in the same column. -/
def aligned : List Tree → Bool
  | .node i _ _ :: .node j s below :: rest => i == j && aligned (.node j s below :: rest)
  | _ => true

mutual

def readLine : Tree → Reading Part
  | .node _ text below =>
    if text = ['-'] then do
      let parts ← readLines below
      let value ← if aligned below then assemble parts else failure
      return .item value
    else
      match keyOf? text with
      | none => do
        let (name, rest) := nameOf text
        let value ← if below.isEmpty then flowValue rest else failure
        return .whole (← remember name value)
      | some (key, rest) => do
        let (name, rest) := nameOf rest
        let parts ← readLines below
        let value ←
          if rest.isEmpty then (if aligned below then assemble parts else failure)
          else if below.isEmpty then flowValue rest
          else failure
        return .entry (String.ofList key) (← remember name value)

def readLines : List Tree → Reading (List Part)
  | [] => pure []
  | line :: rest => do
    let part ← readLine line
    return part :: (← readLines rest)

end

/-- The value that a text in block style denotes. -/
def read? (text : String) : Option Json := do
  let trees := treesOf text
  let (parts, _) ← (readLines trees).run []
  if aligned trees then assemble parts else none

end DartScaffold.Config.Block
