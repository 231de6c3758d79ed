import DartScaffold.Aggregate.Patch
import DartScaffold.ClassName.Scope
import DartScaffold.Config.Options
import DartScaffold.Config.ProjectName
import DartScaffold.Disk.Home
import DartScaffold.Log
import DartScaffold.Sample.Cache

/-!
Tasks: the steps of generating one unit. A task works on three layers of state with three
lifetimes: the project, which all features share, the memory of a page, and the trail of the unit
itself. All three stay as they are when a task fails, so what was written before the failure is on
the disk and in the trail.
-/

namespace DartScaffold.Run

open Disk (Location)

/-- What is to be generated, and how. -/
structure Plan where
  options : Options := {}
  /-- The file that names the project, unless it is looked for in the root. -/
  projectFile : Option Location := none
  mode : Disk.WriteMode := .replace
  homes : Disk.Homes := {}
  deriving Repr

def Plan.root (p : Plan) : Location :=
  Location.ofString p.options.root

/-- The place that the configuration names, if it names one. -/
def Plan.place? (p : Plan) : Option String → Except Failure (Option Location)
  | none | some "" => .ok none
  | some text =>
    match p.homes.resolve? p.root text with
    | some place => .ok (some place)
    | none => .error .unknownHome

/-- What the features of a run share. -/
structure Project where
  disk : Disk
  /-- Empty until it is known. -/
  name : String := ""
  log : List Log.Entry := []

def Project.tell (p : Project) (entry : Log.Entry) : Project :=
  { p with log := p.log ++ [entry] }

/-- What the APIs of a page share. -/
structure Memory where
  samples : Sample.Cache := []
  scope : ClassName.Scope := {}

/-- What one unit did so far. -/
structure Trail where
  files : List Saved := []
  warnings : List String := []

structure Workspace where
  project : Project
  memory : Memory := {}
  trail : Trail := {}

abbrev Task := ExceptT Failure (StateM Workspace)

namespace Task

def tell (entry : Log.Entry) : Task Unit :=
  modify fun w => { w with project := w.project.tell entry }

def tellWarnings (source : Log.Source) (texts : List String) : Task Unit :=
  texts.forM fun text => tell (Log.warning source text)

/-- Warnings that the unit's result carries. -/
def addWarnings (texts : List String) : Task Unit :=
  modify fun w => { w with trail := { w.trail with warnings := w.trail.warnings ++ texts } }

def ofExcept {α : Type} : Except Failure α → Task α
  | .ok a => pure a
  | .error failure => throw failure

def isFile (place : Location) : Task Bool := do
  ofExcept (((← get).project.disk.isFile place).mapError Failure.disk)

def useDisk (disk : Disk) : Task Unit :=
  modify fun w => { w with project := { w.project with disk } }

def useSamples (samples : Sample.Cache) : Task Unit :=
  modify fun w => { w with memory := { w.memory with samples } }

def useScope (scope : ClassName.Scope) : Task Unit :=
  modify fun w => { w with memory := { w.memory with scope } }

def note (saved : Saved) : Task Unit :=
  modify fun w => { w with trail := { w.trail with files := w.trail.files ++ [saved] } }

/-- Makes a file hold the content. -/
def save (plan : Plan) (place : Location) (content : Twin String) : Task Unit := do
  let (result, disk) := (← get).project.disk.saveTwin plan.mode place content
  useDisk disk
  note (← ofExcept result)

/-- Merges a fragment into its file in the page's directory. -/
def patch (plan : Plan) (pageDirectory : Location) (fragment : Twin Aggregate.Fragment) :
    Task Unit := do
  let place := pageDirectory.child fragment.first.relativePath
  let (warnings, result, disk) :=
    Aggregate.patch (← get).project.disk plan.mode place fragment
  useDisk disk
  tellWarnings .merging warnings
  note (← ofExcept result)
  addWarnings warnings

def sample (place : Location) : Task (Twin Json) := do
  let w ← get
  let (result, samples) := w.memory.samples.load w.project.disk place
  useSamples samples
  ofExcept result

def shapeAt (place : Option Location) : Task (Twin (Entries × Bool)) := do
  let w ← get
  let (result, samples) := w.memory.samples.shape w.project.disk place
  useSamples samples
  ofExcept result

def shape (plan : Plan) (reference : Option String) : Task (Twin (Entries × Bool)) := do
  shapeAt (← ofExcept (plan.place? reference))

/-- The name of the project, which is looked up when it is first asked for. -/
def projectName (plan : Plan) : Task String := do
  let project := (← get).project
  if project.name != "" then return project.name
  let (name, warnings) ←
    ofExcept (Config.projectName project.disk plan.root plan.projectFile)
  tellWarnings .loading warnings
  modify fun w => { w with project := { w.project with name } }
  return name

end Task

end DartScaffold.Run
