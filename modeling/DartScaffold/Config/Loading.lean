import DartScaffold.Config.Block
import DartScaffold.Config.Reading
import DartScaffold.Disk.TextFile
import DartScaffold.Json.Reader

/-!
Configuration files on disk. They are read in the flow style that YAML shares with JSON, or in
block style.
-/

namespace DartScaffold.Config

open Disk (Location)

/-- What a reader was doing when it met the fault in a text. -/
def activity : List Char → String
  | '[' :: _ => "while parsing a flow sequence"
  | '{' :: _ => "while parsing a flow mapping"
  | _ => "while scanning for the next token"

/-- What was being read, and on the next line where that began. -/
def unreadableDetail (text : String) : String :=
  let s := Json.skipSpace text.toList
  let blanks := text.toList.take (text.length - s.length)
  let column := (blanks.reverse.takeWhile (· != '\n')).length + 1
  let line := blanks.count '\n' + 1
  s!"{activity s}\n  in line {line}, column {column}"

/-- The mapping that the file at `place` holds; an empty document is an empty mapping. -/
def readMapping (disk : Disk) (place : Location) : Except Failure Entries := do
  let refuse (fault : ConfigFault) : Except Failure Entries :=
    .error (.config fault [("file", .str place.toString)])
  match ← disk.textIfFile place with
  | none => refuse .fileNotFound
  | some text =>
    if (Json.skipSpace text.toList).isEmpty then return []
    match (Json.read? text).or (Block.read? text) with
    | none => refuse (.unreadableYaml (unreadableDetail text))
    | some .null => return []
    | some (.obj entries) => return entries
    | some value => refuse (.topNotMapping value.typeName)

def directory (root : Location) : Location :=
  root.child directoryName

/-- The configuration files of a project, sorted by name, or the one of an application. -/
def discover (disk : Disk) (root : Location) (apps : Option String) :
    Except Failure (List Location) :=
  let directory := directory root
  match apps with
  | none | some "" => do
    let _ ← (disk.isDirectory directory).mapError Failure.disk
    let names := (disk.names directory).filter fun name => (dropEnd? fileName name).isSome
    let places := (names.mergeSort fun a b => !(b < a)).map directory.child
    let files ← places.filterM fun place => (disk.isFile place).mapError Failure.disk
    if files.isEmpty then
      throw (.config .noFiles [("directory", .str directory.toString)])
    return files
  | some apps => do
    let place := directory.child (apps ++ appsFileEnd)
    if ← (disk.isFile place).mapError Failure.disk then return [place]
    else throw (.config (.noAppsFile apps) [("file", .str place.toString)])

def load (disk : Disk) (root place : Location) : Except Failure ConfigFile := do
  ofEntries place root (← readMapping disk place)

def loadEach (disk : Disk) (root : Location) : List Location → Except Failure (List ConfigFile)
  | [] => .ok []
  | place :: rest => do
    let file ← load disk root place
    return file :: (← loadEach disk root rest)

def loadAll (disk : Disk) (root : Location) (apps : Option String) :
    Except Failure (List ConfigFile) := do
  loadEach disk root (← discover disk root apps)

end DartScaffold.Config
