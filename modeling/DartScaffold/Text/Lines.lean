/-!
Texts as sequences of lines. `splitLines` and `joinLines` are inverse to one another, so a file is
taken apart and put together without loss; `normalizeNewlines` is what reading a text file does to
the line ends of other platforms.
-/

namespace DartScaffold.Text

/-- The parts between the occurrences of `sep`; there is always at least one. -/
def splitOnChar (sep : Char) : List Char → List (List Char)
  | [] => [[]]
  | c :: rest =>
    if c = sep then [] :: splitOnChar sep rest
    else
      match splitOnChar sep rest with
      | [] => [[c]]
      | part :: parts => (c :: part) :: parts

def splitLines (text : String) : List String :=
  (splitOnChar '\n' text.toList).map String.ofList

def joinLines (lines : List String) : String :=
  "\n".intercalate lines

/-- Line ends written as CR LF or as a lone CR become LF. -/
def normalizeNewlines : List Char → List Char
  | [] => []
  | '\r' :: '\n' :: rest => '\n' :: normalizeNewlines rest
  | '\r' :: rest => '\n' :: normalizeNewlines rest
  | c :: rest => c :: normalizeNewlines rest

/-- A last line counts whether or not a line feed ends it. -/
def lineCount (text : String) : Nat :=
  match text.toList.getLast? with
  | none => 0
  | some '\n' => text.toList.count '\n'
  | some _ => text.toList.count '\n' + 1

end DartScaffold.Text
