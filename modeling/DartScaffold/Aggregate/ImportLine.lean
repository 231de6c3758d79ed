import DartScaffold.Aggregate.Marker

/-!
Directive lines: `import`, `export` and `part` with a quoted location. Two of them are the same
when their normal forms are equal.
-/

namespace DartScaffold.Aggregate

open Text (isBlank)

def isQuote (c : Char) : Bool := c == '\'' || c == '"'

/-- The text after the word that begins a directive. -/
def afterDirective? (s : List Char) : Option (List Char) :=
  (after? "import".toList s).or ((after? "export".toList s).or (after? "part".toList s))

/-- The text after a quoted location that is not empty. -/
def afterLocation? : List Char → Option (List Char)
  | c :: s =>
    if isQuote c then
      let location := s.takeWhile fun c => !isQuote c
      match location, s.drop location.length with
      | [], _ => none
      | _, [] => none
      | _, _ :: rest => some rest
    else none
  | [] => none

/-- A first semicolon is there, and blanks alone follow it. -/
def endsDirective (s : List Char) : Bool :=
  match s.dropWhile (· != ';') with
  | [] => false
  | _ :: rest => allBlank rest

def isImportLine (line : String) : Bool :=
  match afterDirective? (line.toList.dropWhile isBlank) with
  | some s =>
    match s with
    | c :: _ =>
      isBlank c &&
        match afterLocation? (s.dropWhile isBlank) with
        | some rest => endsDirective rest
        | none => false
    | [] => false
  | none => false

/-- No space stands before a semicolon. -/
def closeSemicolons : List Char → List Char
  | ' ' :: ';' :: rest => ';' :: closeSemicolons rest
  | c :: rest => c :: closeSemicolons rest
  | [] => []

def singleQuotes (s : List Char) : List Char :=
  s.map fun c => if c = '"' then '\'' else c

/-- The normal form of a directive: single quotes, single spaces, none before a semicolon. -/
def normalizeImport (line : String) : String :=
  String.ofList (closeSemicolons (Text.collapseBlanks (singleQuotes (Text.strip line.toList))))

end DartScaffold.Aggregate
