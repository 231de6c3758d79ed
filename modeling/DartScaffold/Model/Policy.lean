import DartScaffold.Artifact

/-!
What a model class contains, by its kind: a request body writes maps and skips nulls, a response
reads and writes maps and JSON, an entity copies itself, an extra model is a response under
another name.
-/

namespace DartScaffold.Model

inductive Kind where
  | body
  | response
  | entity
  | extra
  deriving DecidableEq, Repr

namespace Kind

def artifact : Kind → Artifact
  | body => .body
  | response => .response
  | entity => .entity
  | extra => .extra

/-- The class has `fromMap`, `fromJson` and `toJson`. -/
def readsJson : Kind → Bool
  | response | extra => true
  | _ => false

def writesMap : Kind → Bool
  | entity => false
  | _ => true

def copies : Kind → Bool
  | entity => true
  | _ => false

/-- A body takes further entries in `rawBody` and leaves out fields that are null. -/
def isBody : Kind → Bool
  | body => true
  | _ => false

end Kind

/-- The call that turns a date into text unless the settings name a pattern. -/
def defaultDateCall : String := ".toIso8601String()"

structure Policy where
  kind : Kind
  dateCall : String := defaultDateCall
  deriving Repr, DecidableEq

end DartScaffold.Model
