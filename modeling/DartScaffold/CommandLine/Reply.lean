import DartScaffold.CommandLine.Request
import DartScaffold.Config.Starter
import DartScaffold.Run.Generation

/-!
What a command line does to a disk and what it answers: an exit status, a text, and what it tells
on the way.
-/

namespace DartScaffold.CommandLine

open Disk (Location)

/-- What the user is shown. -/
inductive Shown where
  | nothing
  | lines (texts : List String)
  | summary (report : Run.Report)
  deriving DecidableEq, Repr

/-- The text, for a run that took some milliseconds. -/
def Shown.text (milliseconds : Nat) : Shown → String
  | nothing => ""
  | lines texts => "\n".intercalate texts ++ "\n"
  | summary report => report.summary milliseconds ++ "\n"

inductive Exit where
  | success
  | configurationError
  | generationError
  /-- The command line itself is wrong. -/
  | misuse
  | inputError
  deriving DecidableEq, Repr

def Exit.status : Exit → Nat
  | success => 0
  | configurationError => 1
  | generationError | misuse => 2
  | inputError => 4

structure Reply where
  exit : Exit
  shown : Shown := .nothing
  deriving DecidableEq, Repr

/-- A reply, or a failure that the command line has no words for, and what became of the rest. -/
structure Outcome where
  reply : Except Failure Reply
  /-- What is wrong with the command line itself. -/
  complaint : Option String := none
  log : List Log.Entry := []
  disk : Disk

def versionText : String := "Json2Dart v1.0.0"

def complain (text : String) : Log.Entry :=
  Log.error .commandLine text

def createdLine (place : Location) : String :=
  "  ✓ created " ++ place.toString

def createdLines (created : List Location) : List String :=
  if created.isEmpty then ["  json2dart is already initialised."] else created.map createdLine

def initialise (root : Location) (disk : Disk) : Outcome :=
  match Config.initialise disk root with
  | (.ok created, disk) =>
    { reply := .ok { exit := .success, shown := .lines (createdLines created) }, disk }
  | (.error (.disk e), disk) =>
    { reply := .ok { exit := .inputError }
      log := [complain s!"Cannot initialise {root.toString}: {e.message}"], disk }
  | (.error failure, disk) => { reply := .error failure, disk }

/-- The value of a flag as a field of the options. -/
def fieldOf (key : String) : Option Given → Schema.Checked (Option String)
  | none => .valid none
  | some (.text text) => .valid (some text)
  | some .nothing => (Schema.fail .notString).under key

def optionsOf (root : Location) (a : Arguments) : Schema.Checked Options :=
  (fun apps feature page =>
      { root := root.toString
        projectName := (a.projectName.bind Given.nonempty?).getD ""
        apps, feature, page
        layers := a.layers
        replace := a.replace
        unitTest := a.unitTest })
    <$> fieldOf "apps_name" a.apps
    <*> fieldOf "feature_name" a.feature
    <*> fieldOf "page_name" a.page

/-- The plan for a root and arguments. -/
def planOf (root : Location) (a : Arguments) (homes : Disk.Homes) (disk : Disk) :
    Except Failure Run.Plan := do
  let options ← (optionsOf root a).toExcept.mapError Failure.fields
  return {
    options
    projectFile := (a.projectFile.bind Given.nonempty?).map fun text =>
      disk.absolute (Location.ofString text)
    homes }

def failed (exit : Exit) : Log.Entry :=
  complain s!"Generation failed with exit code {exit.status}."

/-- The reply to a run that could not be carried out. -/
def refusal (failure : Failure) : Except Failure (Exit × String) :=
  match failure with
  | .config _ _ => .ok (.configurationError, "Configuration error: " ++ failure.terminalText)
  | .sample _ _ | .noAnchor _ _ | .disk _ =>
    .ok (.inputError, "Generation aborted: " ++ failure.terminalText)
  | _ => .error failure

def generate (schedule : Run.Schedule) (plan : Run.Plan) (disk : Disk) : Outcome :=
  let (result, project) := Run.generate schedule plan disk
  match result with
  | .ok report =>
    let shown := Shown.summary report
    if report.success then
      { reply := .ok { exit := .success, shown }, log := project.log, disk := project.disk }
    else
      { reply := .ok { exit := .generationError, shown }
        log := project.log ++ [failed .generationError], disk := project.disk }
  | .error failure =>
    match refusal failure with
    | .ok (exit, text) =>
      { reply := .ok { exit }, log := project.log ++ [complain text, failed exit]
        disk := project.disk }
    | .error failure => { reply := .error failure, log := project.log, disk := project.disk }

def executeAt (root : Location) (a : Arguments) (homes : Disk.Homes) (schedule : Run.Schedule)
    (disk : Disk) : Outcome :=
  match disk.isDirectory root with
  | .error e => { reply := .error (.disk e), disk }
  | .ok false =>
    { reply := .ok { exit := .inputError }
      log := [complain s!"Project root is not a directory: {root.toString}"], disk }
  | .ok true =>
    match a.command with
    | .init => initialise root disk
    | .generate =>
      match planOf root a homes disk with
      | .error failure => { reply := .error failure, disk }
      | .ok plan => generate schedule plan disk

def execute (a : Arguments) (homes : Disk.Homes) (schedule : Run.Schedule) (disk : Disk) :
    Outcome :=
  match a.root with
  | .text root => executeAt (disk.absolute (Location.ofString root)) a homes schedule disk
  | .nothing => { reply := .error .noLocation, disk }

/-- A quiet run tells nothing. -/
def Outcome.hush (o : Outcome) (quiet : Bool) : Outcome :=
  if quiet then { o with log := [] } else o

def usageLines : List String :=
  ["usage: json2dart [-h] [--version] [--root DIR] [--apps-name NAME]",
   "                 [--feature-name NAME] [--page-name NAME]",
   "                 [--project-name NAME] [--morpheme-yaml PATH]",
   "                 [--api | --no-api] [--replace | --no-replace]",
   "                 [--unit-test | --no-unit-test] [-v] [-q]",
   "                 [\x7bgenerate,init\x7d]"]

def helpLines : List String :=
  usageLines ++
  ["",
   "Json2Dart — Flutter model & layer generator.",
   "",
   "Turns JSON request/response samples listed in json2dart/*json2dart.yaml into " ++
     "Equatable models, mappers, data sources, repositories and use cases.",
   "",
   "positional arguments:",
   "  \x7bgenerate,init\x7d       'generate' (default) or 'init' to scaffold the",
   "                        configuration.",
   "",
   "options:",
   "  -h, --help            show this help message and exit",
   "  --version             show program's version number and exit",
   "  --root DIR            Project root directory (default: current directory).",
   "",
   "selection:",
   "  --apps-name NAME      Use json2dart/\x7bNAME\x7d_json2dart.yaml and",
   "                        apps/\x7bNAME\x7d/features.",
   "  --feature-name NAME   Generate only this feature.",
   "  --page-name NAME      Generate only this page (requires --feature-name).",
   "",
   "project:",
   "  --project-name NAME   Override project_name from morpheme.yaml.",
   "  --morpheme-yaml PATH  Path to morpheme.yaml (default: \x7broot\x7d/morpheme.yaml).",
   "",
   "behaviour:",
   "  --api                 Generate data/domain layers (overrides json2dart.api).",
   "  --no-api              Generate models only.",
   "  --replace             Prune blocks of APIs no longer configured (overrides",
   "                        json2dart.replace).",
   "  --no-replace          Keep blocks of APIs no longer configured.",
   "  --unit-test           Generate model and mapper unit tests (overrides",
   "                        json2dart.unit-test).",
   "  --no-unit-test        Skip unit test generation.",
   "",
   "verbosity:",
   "  -v, --verbose         Increase verbosity (-v for INFO, -vv for DEBUG).",
   "  -q, --quiet           Suppress all log output.",
   "",
   "Examples:",
   "  json2dart",
   "  json2dart generate --feature-name auth --page-name login",
   "  json2dart --apps-name shop --replace",
   "  json2dart init"]

/-- Answers a command line; `texts` are its words. -/
def reply (texts : List String) (homes : Disk.Homes) (schedule : Run.Schedule) (disk : Disk) :
    Outcome :=
  match Request.ofTexts texts with
  | .help => { reply := .ok { exit := .success, shown := .lines helpLines }, disk }
  | .version => { reply := .ok { exit := .success, shown := .lines [versionText] }, disk }
  | .misuse complaint => { reply := .ok { exit := .misuse }, complaint, disk }
  | .run a => (execute a homes schedule disk).hush a.quiet

end DartScaffold.CommandLine
