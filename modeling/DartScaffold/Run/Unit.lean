import DartScaffold.Disk.TextFile

/-!
A unit is one API of a page, a page as a whole, or a feature that had to be given up. Its result
tells which files it was about and why it failed, if it did.
-/

namespace DartScaffold.Run

structure UnitResult where
  feature : String
  page : String
  api : Option String := none
  warnings : List String := []
  failure : Option Failure := none
  /-- The files that were written or found as they should be. -/
  files : List Saved := []
  deriving DecidableEq, Repr

namespace UnitResult

def label (u : UnitResult) : String :=
  "/".intercalate ([u.feature, u.page] ++ u.api.toList)

def succeeded (u : UnitResult) : Bool :=
  u.failure.isNone

/-- The files whose content changed. -/
def changed (u : UnitResult) : List String :=
  (u.files.filter Saved.changed).map Saved.path

/-- A feature that was given up stands for all its units. -/
def aborted (feature : String) (failure : Failure) : UnitResult :=
  { feature, page := "*", failure := some failure }

/-- The result in a few words. -/
def detail (u : UnitResult) : String :=
  match u.failure with
  | none => s!"{u.changed.length} changed"
  | some failure => s!"{failure.kind}: {failure.message}"

def mark (u : UnitResult) : String :=
  if u.succeeded then "✓" else "✗"

end UnitResult

end DartScaffold.Run
