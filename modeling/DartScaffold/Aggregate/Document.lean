import DartScaffold.Aggregate.ImportLine
import DartScaffold.Text.Lines

/-!
An aggregate file as a list of nodes. A block runs from its begin marker to the end marker of the
same section and API; a begin marker that another one follows first, or none closes, is a line of
text. `parse` and `render` are inverse to one another, so whatever an edit does not touch is kept
as it was.
-/

namespace DartScaffold.Aggregate

inductive Node where
  | text (line : String)
  | directive (line : String)
  | anchor (line part indent : String)
  | block (key : BlockKey) (first : String) (body : List String) (last : String)
  deriving DecidableEq, Repr

abbrev Document := List Node

/-- A line that is no part of a block. -/
def Node.ofLine (line : String) : Node :=
  match anchor? line with
  | some (indent, part) => .anchor line part indent
  | none => if isImportLine line then .directive line else .text line

def Node.lines : Node → List String
  | .text line => [line]
  | .directive line => [line]
  | .anchor line _ _ => [line]
  | .block _ first body last => first :: body ++ [last]

def Node.isBlockOf (api : String) : Node → Bool
  | .block key _ _ _ => key.api == api
  | _ => false

/-- The body and the end line of a block that was just opened. -/
def closing? (key : BlockKey) : List String → Option (List String × String)
  | [] => none
  | line :: rest =>
    if end? line = some key then some ([], line)
    else if (begin? line).isSome then none
    else (closing? key rest).map fun (body, last) => (line :: body, last)

/-- The block that `line` opens, if it closes among the lines after it. -/
def blockAt? (line : String) (rest : List String) : Option Node :=
  match begin? line with
  | none => none
  | some (_, key) => (closing? key rest).map fun (body, last) => .block key line body last

namespace Document

/-- The nodes of a list of lines, the first `skip` of which are part of the block before them. -/
def ofLines : Nat → List String → Document
  | _, [] => []
  | skip + 1, _ :: rest => ofLines skip rest
  | 0, line :: rest =>
    match blockAt? line rest with
    | some node => node :: ofLines (node.lines.length - 1) rest
    | none => .ofLine line :: ofLines 0 rest

def parse (text : String) : Document :=
  ofLines 0 (Text.splitLines text)

def render (d : Document) : String :=
  Text.joinLines (d.flatMap Node.lines)

def blockKeys (d : Document) : List BlockKey :=
  d.filterMap fun
    | .block key _ _ _ => some key
    | _ => none

/-- The APIs that have blocks, in the order of their first ones. -/
def apis (d : Document) : List String :=
  (d.blockKeys.map BlockKey.api).eraseDups

def findBlock? (d : Document) (key : BlockKey) : Option Nat :=
  d.findIdx? fun
    | .block k _ _ _ => k == key
    | _ => false

def findAnchor? (d : Document) (part : String) : Option Nat :=
  d.findIdx? fun
    | .anchor _ p _ => p == part
    | _ => false

/-- The normal forms of the directives. -/
def importKeys (d : Document) : List String :=
  d.filterMap fun
    | .directive line => some (normalizeImport line)
    | _ => none

end Document

end DartScaffold.Aggregate
