import DartScaffold.Text.Blank
import DartScaffold.Text.WordChar

/-!
Marker lines: comments in an aggregate file that open and close the block of one API in one
section, and anchors before which the blocks of a section are inserted. A marker may be indented
and blanks may follow it.
-/

namespace DartScaffold.Aggregate

open Text (isBlank isWordChar)

/-- What a block belongs to. -/
structure BlockKey where
  part : String
  api : String
  deriving DecidableEq, Repr

def markerStart : String := "// json2dart:"

def beginMarker (part api : String) : String :=
  markerStart ++ "begin " ++ part ++ ":" ++ api

def endMarker (part api : String) : String :=
  markerStart ++ "end " ++ part ++ ":" ++ api

def anchorMarker (part : String) : String :=
  markerStart ++ "anchor " ++ part

/-- The rest of a text after `head`. -/
def after? : List Char → List Char → Option (List Char)
  | [], s => some s
  | _ :: _, [] => none
  | h :: head, c :: s => if h = c then after? head s else none

def isPartChar (c : Char) : Bool :=
  isWordChar c || c == '-'

/-- The name of a section at the start of a text. -/
def takePart? (s : List Char) : Option (String × List Char) :=
  match s.takeWhile isPartChar with
  | [] => none
  | name => some (String.ofList name, s.dropWhile isPartChar)

def allBlank (s : List Char) : Bool :=
  s.all isBlank

/-- The name of an API: everything up to the blanks that end the line. -/
def lastWord? (s : List Char) : Option String :=
  let name := s.takeWhile fun c => !isBlank c
  if name.isEmpty then none
  else if allBlank (s.drop name.length) then some (String.ofList name) else none

/-- The indent of a line and the text after it. -/
def indentOf (line : List Char) : List Char × List Char :=
  line.span isBlank

def beginHead : List Char := (markerStart ++ "begin ").toList

def endHead : List Char := (markerStart ++ "end ").toList

def anchorHead : List Char := (markerStart ++ "anchor ").toList

/-- The indent and the key of a line that holds the marker of a block, which begins with `head`. -/
def blockMarker? (head : List Char) (line : String) : Option (String × BlockKey) := do
  let (indent, s) := indentOf line.toList
  let s ← after? head s
  let (part, s) ← takePart? s
  let s ← after? [':'] s
  let api ← lastWord? s
  return (String.ofList indent, ⟨part, api⟩)

def begin? (line : String) : Option (String × BlockKey) :=
  blockMarker? beginHead line

def end? (line : String) : Option BlockKey :=
  (blockMarker? endHead line).map Prod.snd

/-- The indent and the section of an anchor line. -/
def anchor? (line : String) : Option (String × String) := do
  let (indent, s) := indentOf line.toList
  let s ← after? anchorHead s
  let (part, s) ← takePart? s
  if allBlank s then some (String.ofList indent, part) else none

end DartScaffold.Aggregate
