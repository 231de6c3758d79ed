import DartScaffold.Failure
import DartScaffold.Schema.Check

/-!
Kinds of records: a record is checked as a whole when it is made and field by field when it is
changed, and what follows from its fields cannot be assigned.
-/

namespace DartScaffold.Schema

/-- A kind of record. -/
structure RecordKind (α : Type) where
  name : String
  ofEntries : Entries → Checked α
  /-- The record with one field checked and replaced. -/
  set : α → String → Json → Checked α
  /-- The names of the values that follow from the fields. -/
  computed : List String := []

/-- What every record tells of itself: its fields, which of them it was given, and what else. -/
def selfDescriptions : List String :=
  ["model_extra", "model_fields_set", "__fields__", "__fields_set__"]

namespace RecordKind

variable {α : Type}

/-- The record that a value stands for. -/
def make (kind : RecordKind α) (value : Json) : Except Failure α :=
  (record kind.name kind.ofEntries value).toExcept.mapError Failure.fields

/-- Why a name that makes something a record refuses a value. -/
def refusal? (kind : RecordKind α) (field : String) (value : Json) : Option Failure :=
  match field, value with
  | "__class__", value => some (.notRecordKind value.typeName)
  | "__dict__", .obj _ => none
  | "__dict__", value => some (.notFields value.typeName)
  | "__weakref__", _ => some (.fixed kind.name field)
  | _, _ => none

/-- The record after an assignment. Any other name that begins with an underscore is no field of a
record, and assigning to it changes none. -/
def assign (kind : RecordKind α) (a : α) (field : String) (value : Json) : Except Failure α :=
  if (selfDescriptions ++ kind.computed).contains field then .error (.computed kind.name field)
  else if field.toList.head? = some '_' then
    match kind.refusal? field value with
    | some failure => .error failure
    | none => .ok a
  else (kind.set a field value).toExcept.mapError Failure.fields

end RecordKind

end DartScaffold.Schema
