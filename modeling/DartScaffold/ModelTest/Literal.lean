import DartScaffold.Dart.Literal
import DartScaffold.Model.ClassText
import DartScaffold.Shape.Conform

/-!
A conforming sample as Dart expressions: the model that holds it, and the map that the model turns
into.
-/

namespace DartScaffold.ModelTest

open Dart (stringLiteral literal)

/-- The model classes that an expression refers to. -/
structure Classes where
  policy : Model.Policy
  nameOf : Path → String
  /-- The import prefix of the model file. -/
  qualifier : String

def dateLiteral (text : String) : String :=
  s!"DateTime.tryParse({stringLiteral text})!"

def constructorCall (c : Classes) (path : Path) (args : List String) : String :=
  s!"{c.qualifier}.{c.nameOf path}(" ++ ", ".intercalate args ++ ")"

/-- The identifiers of the fields of a nested class. -/
def fieldNames (c : Classes) (path : Path) (fields : Fields) : List String :=
  (Model.members c.policy.kind {} path fields).fields.map Dart.Field.name

mutual

/-- A value as the model has it. -/
def valueLiteral (c : Classes) (path : Path) : Shape → Json → String
  | .object fields, .obj entries =>
    constructorCall c path (fieldArgs c path fields (fieldNames c path fields) entries)
  | .list element, .arr items =>
    "[" ++ ", ".intercalate (items.map (valueLiteral c path element)) ++ "]"
  | .scalar .datetime, .str text => dateLiteral text
  | _, value => literal .typed value

/-- The named arguments for the fields that have a value. -/
def fieldArgs (c : Classes) (path : Path) :
    List (String × Shape) → List String → Entries → List String
  | (key, shape) :: rest, name :: names, entries =>
    match (entries.get? key).getD .null with
    | .null => fieldArgs c path rest names entries
    | value =>
      (name ++ ": " ++ valueLiteral c (path ++ [key]) shape value) ::
        fieldArgs c path rest names entries
  | _, _, _ => []

end

/-- The root model; its path parameters have their own names as values. -/
def rootLiteral (c : Classes) (options : Model.BodyOptions) (fields : Fields) (value : Entries) :
    String :=
  let m := Model.members c.policy.kind options [] fields
  let params := m.params.zip options.pathParams |>.map fun (name, raw) =>
    s!"{name}: {stringLiteral raw}"
  constructorCall c [] (params ++ fieldArgs c [] fields (m.fields.map Dart.Field.name) value)

mutual

/-- A value as the map of the model has it. -/
def encodedLiteral (policy : Model.Policy) : Shape → Json → String
  | _, .null => "null"
  | .object fields, .obj entries =>
    "\x7b" ++ ", ".intercalate (encodedEntries policy fields entries) ++ "\x7d"
  | .list element, .arr items =>
    "[" ++ ", ".intercalate (items.map (encodedLiteral policy element)) ++ "]"
  | .scalar .datetime, .str text => dateLiteral text ++ policy.dateCall
  | _, value => literal .typed value

/-- The entries for the fields; a body leaves out those without a value. -/
def encodedEntries (policy : Model.Policy) : List (String × Shape) → Entries → List String
  | [], _ => []
  | (key, shape) :: rest, entries =>
    let value := (entries.get? key).getD .null
    if policy.kind.isBody && value == .null then encodedEntries policy rest entries
    else
      (stringLiteral key ++ ": " ++ encodedLiteral policy shape value) ::
        encodedEntries policy rest entries

end

def mapLiteral (policy : Model.Policy) (fields : Fields) (value : Entries) : String :=
  encodedLiteral policy (.object fields) (.obj value)

/-- The part of a sample that the model keeps. -/
def conformed (fields : Fields) (sample : Json) : Entries :=
  match Shape.conform (.object fields) sample with
  | .obj entries => entries
  | _ => []

end DartScaffold.ModelTest
