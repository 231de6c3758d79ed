import DartScaffold.Run.Unit

/-!
What a run did, and its summary for people.
-/

namespace DartScaffold.Run

structure Report where
  success : Bool := true
  project : String := ""
  root : String := ""
  features : List String := []
  units : List UnitResult := []
  warnings : List String := []
  deriving DecidableEq, Repr

namespace Report

/-- One failed unit makes the run fail. -/
def extend (r : Report) (units : List UnitResult) : Report :=
  { r with
    units := r.units ++ units
    success := r.success && units.all UnitResult.succeeded }

def failed (r : Report) : List UnitResult :=
  r.units.filter fun u => !u.succeeded

def succeeded (r : Report) : List UnitResult :=
  r.units.filter UnitResult.succeeded

/-- The files that any unit changed, each once. -/
def changedFiles (r : Report) : List String :=
  (r.units.flatMap UnitResult.changed).eraseDups

/-- The warnings of the run, then those of its units. -/
def allWarnings (r : Report) : List String :=
  r.warnings ++ r.units.flatMap fun u => u.warnings.map fun w => s!"{u.label}: {w}"

def width : Nat := 60

def labelWidth : Nat := 40

def ruler (c : Char) : String :=
  String.ofList (List.replicate width c)

/-- The text with blanks after it, up to `width` characters. -/
def padded (width : Nat) (text : String) : String :=
  text ++ String.ofList (List.replicate (width - text.length) ' ')

/-- Seconds with three decimals. -/
def seconds (milliseconds : Nat) : String :=
  let rest := milliseconds % 1000
  s!"{milliseconds / 1000}.{rest / 100}{rest / 10 % 10}{rest % 10}s"

def unitLine (u : UnitResult) : String :=
  s!"    {u.mark} {padded labelWidth u.label} {u.detail}"

def unitLines (r : Report) : List String :=
  if r.units.isEmpty then [] else "  Units:" :: r.units.map unitLine

def warningLines (r : Report) : List String :=
  let warnings := r.allWarnings
  if warnings.isEmpty then []
  else ruler '─' :: s!"  Warnings ({warnings.length}):" :: warnings.map ("    ⚠ " ++ ·)

def status (r : Report) : String :=
  if r.success then "✅ SUCCESS" else "❌ FAILED"

def summary (r : Report) (milliseconds : Nat) : String :=
  "\n".intercalate <|
    [ruler '=',
     "  Json2Dart — Generation Report",
     ruler '=',
     s!"  Status:           {r.status}",
     s!"  Project:          {r.project}",
     s!"  Root:             {r.root}",
     s!"  Features:         {r.features.length}",
     s!"  Units:            {r.units.length}",
     s!"  Failed units:     {r.failed.length}",
     s!"  Files changed:    {r.changedFiles.length}",
     s!"  Total time:       {seconds milliseconds}",
     ruler '─'] ++
    r.unitLines ++ r.warningLines ++ [ruler '=']

end Report

end DartScaffold.Run
