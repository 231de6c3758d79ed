import DartScaffold.Config.Feature
import DartScaffold.Failure

/-!
What the mapping in a configuration file means. One key, `settingsKey`, holds the settings, every
other key is a feature whose value lists its pages, and each page lists its APIs.
-/

namespace DartScaffold.Config

open Disk (Location)

def directoryName : String := "json2dart"

def fileName : String := "json2dart.yaml"

def appsFileEnd : String := "_json2dart.yaml"

def settingsKey : String := "json2dart"

/-- Takes `ending` off a text that ends so. -/
def dropEnd? (ending text : String) : Option String :=
  let s := text.toList
  let n := s.length - ending.length
  if s.drop n == ending.toList then some (String.ofList (s.take n)) else none

/-- The application that a configuration file is for, by the name of the file. -/
def appsNameOf (place : Location) : Option String :=
  match dropEnd? appsFileEnd place.name with
  | some "" => none
  | apps => apps

/-- An empty application name counts as none. -/
def featureDirectory (root : Location) (feature : String) : Option String → Location
  | none | some "" => (root.child "features").child feature
  | some apps => (((root.child "apps").child apps).child "features").child feature

/-- A null stands for an empty mapping. -/
def mappingOf (what : String) (context : Entries) : Json → Except Failure Entries
  | .null => .ok []
  | .obj entries => .ok entries
  | value => .error (.config (.notMapping what value.typeName) context)

def pageOf (context : Entries) (name : String) (raw : Json) : Except Failure Page := do
  let apis ← mappingOf "A page" (context.put "page" (.str name)) raw
  if name = "" then throw (.fields [⟨["name"], .emptyString⟩])
  return { name, apis }

def pagesOf (context : Entries) : Entries → Except Failure (List Page)
  | [] => .ok []
  | (name, raw) :: rest => do
    let page ← pageOf context name raw
    return page :: (← pagesOf context rest)

def featureOf (place root : Location) (name : String) (raw : Json) : Except Failure Feature := do
  let context : Entries := [("file", .str place.toString), ("feature", .str name)]
  let pages ← pagesOf context (← mappingOf "A feature" context raw)
  if name = "" then throw (.fields [⟨["name"], .emptyString⟩])
  let apps := appsNameOf place
  return { name, directory := (featureDirectory root name apps).toString, apps, pages }

def featuresOf (place root : Location) : Entries → Except Failure (List Feature)
  | [] => .ok []
  | (name, raw) :: rest =>
    if name = settingsKey then featuresOf place root rest
    else do
      let feature ← featureOf place root name raw
      return feature :: (← featuresOf place root rest)

def settingsOf (place : Location) (entries : Entries) : Except Failure Settings := do
  let context : Entries := [("file", .str place.toString)]
  let raw ← mappingOf s!"'{settingsKey}' section" context
    ((entries.get? settingsKey).getD .null)
  match Settings.ofEntries raw with
  | .valid settings => return settings
  | .invalid problems => throw (.config (.badSettings Settings.record.name problems) context)

/-- The configuration file at `place` with the given content. -/
def ofEntries (place root : Location) (entries : Entries) : Except Failure ConfigFile := do
  let settings ← settingsOf place entries
  let features ← featuresOf place root entries
  return { place, apps := appsNameOf place, settings, features }

end DartScaffold.Config
