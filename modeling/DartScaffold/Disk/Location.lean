import DartScaffold.Text.Lines

/-!
Locations of files and directories. Repeated slashes and single dots leave no trace, `..` stays
where it is, and a location that begins with a slash replaces what it is joined to.
-/

namespace DartScaffold.Disk

structure Location where
  /-- Empty for a relative location, otherwise one slash or exactly two. -/
  root : String := ""
  parts : List String := []
  deriving DecidableEq, Repr

namespace Location

def rootOf (text : List Char) : String :=
  match text with
  | '/' :: '/' :: '/' :: _ => "/"
  | '/' :: '/' :: _ => "//"
  | '/' :: _ => "/"
  | _ => ""

def ofString (text : String) : Location :=
  let parts := (Text.splitOnChar '/' text.toList).map String.ofList
  { root := rootOf text.toList, parts := parts.filter fun p => p != "" && p != "." }

def toString (l : Location) : String :=
  if l.root = "" ∧ l.parts = [] then "."
  else l.root ++ "/".intercalate l.parts

def isAbsolute (l : Location) : Bool :=
  l.root != ""

def join (l r : Location) : Location :=
  if r.isAbsolute then r else { l with parts := l.parts ++ r.parts }

/-- The location that `text` names, seen from `l`. -/
def child (l : Location) (text : String) : Location :=
  l.join (ofString text)

def name (l : Location) : String :=
  l.parts.getLast?.getD ""

def parent (l : Location) : Location :=
  { l with parts := l.parts.dropLast }

end Location

end DartScaffold.Disk
