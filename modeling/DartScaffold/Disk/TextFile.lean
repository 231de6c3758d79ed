import DartScaffold.Disk.Basic
import DartScaffold.Failure
import DartScaffold.Sha256
import DartScaffold.Text.Twin

/-!
Text files. Reading turns every kind of line end into LF; writing writes the text as it is, and
only if reading does not already give it. A text with lone surrogates is not written, yet the
directories that lead to its file are made.
-/

namespace DartScaffold

/-- A file that was to hold a content: whether it had to be written, and whether it is new. -/
structure Saved where
  path : String
  content : String
  changed : Bool
  created : Bool
  deriving DecidableEq, Repr

namespace Saved

/-- In bytes. -/
def size (s : Saved) : Nat := s.content.utf8ByteSize

def lineCount (s : Saved) : Nat := Text.lineCount s.content

def digest (s : Saved) : String := Sha256.hex s.content

end Saved

namespace Disk

def readText (d : Disk) (l : Location) : Except Failure String := do
  let bytes ← (d.read l).mapError Failure.disk
  match String.fromUTF8? bytes with
  | some text => return String.ofList (Text.normalizeNewlines text.toList)
  | none => throw .notUtf8

/-- The text at `l` if there is a file. -/
def textIfFile (d : Disk) (l : Location) : Except Failure (Option String) := do
  if ← (d.isFile l).mapError Failure.disk then return some (← d.readText l)
  else return none

def writeText (d : Disk) (mode : WriteMode) (l : Location) (content : String) :
    Except Failure Unit × Disk :=
  let (written, d) := d.write mode l content.toUTF8
  (written.mapError Failure.disk, d)

/-- Writes the content unless the file reads like it. -/
def save (d : Disk) (mode : WriteMode) (l : Location) (content : String) :
    Except Failure Saved × Disk :=
  match d.textIfFile l with
  | .error f => (.error f, d)
  | .ok existing =>
    let saved : Saved :=
      { path := l.toString, content, changed := existing != some content
        created := existing.isNone }
    if saved.changed then
      let (written, d) := d.writeText mode l content
      (written.map fun () => saved, d)
    else (.ok saved, d)

/-- Refuses to write a content for its surrogates. The file is looked at first all the same. -/
def refuse (d : Disk) (l : Location) (run : Text.SurrogateRun) : Except Failure Saved × Disk :=
  match d.textIfFile l with
  | .error f => (.error f, d)
  | .ok _ =>
    let (made, d) := d.makeDirectory l.parent
    ((made.mapError Failure.disk).bind fun () => .error (.loneSurrogates run), d)

def saveTwin (d : Disk) (mode : WriteMode) (l : Location) (content : Twin String) :
    Except Failure Saved × Disk :=
  match content.surrogates? with
  | some run => d.refuse l run
  | none => d.save mode l content.first

end Disk

end DartScaffold
