/-!
What a run tells besides its result.
-/

namespace DartScaffold.Log

inductive Severity where
  | warning
  | error
  deriving DecidableEq, Repr

def Severity.name : Severity → String
  | warning => "WARNING"
  | error => "ERROR"

/-- The part of the program that speaks. -/
inductive Source where
  | commandLine
  | generation
  | loading
  | merging
  | checking
  deriving DecidableEq, Repr

def Source.name : Source → String
  | commandLine => "json2dart"
  | generation => "json2dart.generator"
  | loading => "json2dart.loader"
  | merging => "json2dart.patcher"
  | checking => "json2dart.validators"

structure Entry where
  severity : Severity
  source : Source
  text : String
  deriving DecidableEq, Repr

def warning (source : Source) (text : String) : Entry :=
  { severity := .warning, source, text }

def error (source : Source) (text : String) : Entry :=
  { severity := .error, source, text }

end DartScaffold.Log
