import DartScaffold.Config.Loading
import DartScaffold.Text.Blank

/-!
The name of a project: `project_name` in its `morpheme.yaml`, otherwise the name of its directory.
-/

namespace DartScaffold.Config

open Disk (Location)

def projectFileName : String := "morpheme.yaml"

def projectNameKey : String := "project_name"

/-- A string that is not blank, without the blanks around it. -/
def nonblank? : Json → Option String
  | .str text =>
    let name := String.ofList (Text.strip text.toList)
    if name = "" then none else some name
  | _ => none

/-- The name of the directory itself, with what was missing where the name should be. -/
def directoryNameAsProject (disk : Disk) (root : Location) (complaint : String) :
    String × List String :=
  let name := (disk.absolute root).name
  (name, [complaint, s!"Using '{name}' as project name."])

/-- The name and the warnings. The file is looked for in the root unless it is given. -/
def projectName (disk : Disk) (root : Location) (file : Option Location) :
    Except Failure (String × List String) := do
  let place := file.getD (root.child projectFileName)
  if ← (disk.isFile place).mapError Failure.disk then
    let entries ← readMapping disk place
    match (entries.get? projectNameKey).bind nonblank? with
    | some name => return (name, [])
    | none =>
      return directoryNameAsProject disk root s!"'{projectNameKey}' missing in {place.toString}."
  else return directoryNameAsProject disk root s!"{place.toString} not found."

end DartScaffold.Config
