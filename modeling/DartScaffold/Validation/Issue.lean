import DartScaffold.Failure

/-!
Issues found in a configuration, collected so that all of them can be reported at once.
-/

namespace DartScaffold.Validation

inductive Level where
  | error
  | warning
  | info
  deriving DecidableEq, Repr

namespace Level

def name : Level → String
  | error => "error"
  | warning => "warning"
  | info => "info"

def upperName : Level → String
  | error => "ERROR"
  | warning => "WARNING"
  | info => "INFO"

def mark : Level → String
  | error => "✗"
  | warning => "⚠"
  | info => "ℹ"

end Level

structure Issue where
  level : Level
  code : String
  message : String
  context : Entries := []
  deriving DecidableEq, Repr

namespace Issue

def isError (i : Issue) : Bool := i.level == .error

def isWarning (i : Issue) : Bool := i.level == .warning

def text (i : Issue) : String :=
  "[" ++ i.level.upperName ++ "] " ++ i.code ++ ": " ++ i.message

/-- The issue and its context, a line each. -/
def reportLines (i : Issue) : List String :=
  ("  " ++ i.level.mark ++ " [" ++ i.code ++ "] " ++ i.message) ::
    i.context.map fun (key, value) => "       " ++ key ++ ": " ++ value.plainText

end Issue

/-- Issues in the order in which they were found. -/
abbrev Issues := List Issue

namespace Issues

def errors (issues : Issues) : List Issue := issues.filter Issue.isError

def warnings (issues : Issues) : List Issue := issues.filter Issue.isWarning

def isValid (issues : Issues) : Bool := !issues.any Issue.isError

def summary (issues : Issues) : String :=
  s!"Validation: {issues.errors.length} error(s), {issues.warnings.length} warning(s), " ++
    s!"{issues.length} total item(s)."

def report (issues : Issues) (withInfo : Bool) : String :=
  let shown := issues.filter fun i => withInfo || i.level != .info
  "\n".intercalate ([issues.summary, ""] ++ shown.flatMap Issue.reportLines)

/-- The messages of the errors. -/
def errorMessages (issues : Issues) : List String :=
  issues.errors.map Issue.message

end Issues

end DartScaffold.Validation
