import DartScaffold.Model.Policy
import DartScaffold.Schema.Record

/-!
The settings of a configuration file: date patterns, what to generate, and switches that other
tools read.
-/

namespace DartScaffold

open Schema (Checked Check)

structure Settings where
  bodyDatePattern : Option String := none
  responseDatePattern : Option String := none
  /-- Generate the data and domain layers. -/
  layers : Bool := true
  /-- Remove the blocks of APIs that are no longer configured. -/
  replace : Bool := false
  endpoint : Bool := true
  unitTest : Bool := false
  format : Bool := true
  cubit : Bool := true
  deriving Repr, DecidableEq

namespace Settings

def ofEntries (entries : Entries) : Checked Settings :=
  Settings.mk
    <$> Schema.withDefault entries "body_format_date_time" none (Schema.optional Schema.string)
    <*> Schema.withDefault entries "response_format_date_time" none
      (Schema.optional Schema.string)
    <*> Schema.withDefault entries "api" true Schema.boolean
    <*> Schema.withDefault entries "replace" false Schema.boolean
    <*> Schema.withDefault entries "endpoint" true Schema.boolean
    <*> Schema.withAlias entries "unit-test" "unit_test" false Schema.boolean
    <*> Schema.withAlias entries "format" "run_format" true Schema.boolean
    <*> Schema.withDefault entries "cubit" true Schema.boolean

def set (s : Settings) (field : String) (value : Json) : Checked Settings :=
  Checked.under field <|
    match field with
    | "body_format_date_time" =>
      (fun x => { s with bodyDatePattern := x }) <$> Schema.optional Schema.string value
    | "response_format_date_time" =>
      (fun x => { s with responseDatePattern := x }) <$> Schema.optional Schema.string value
    | "api" => (fun x => { s with layers := x }) <$> Schema.boolean value
    | "replace" => (fun x => { s with replace := x }) <$> Schema.boolean value
    | "endpoint" => (fun x => { s with endpoint := x }) <$> Schema.boolean value
    | "unit_test" => (fun x => { s with unitTest := x }) <$> Schema.boolean value
    | "run_format" => (fun x => { s with format := x }) <$> Schema.boolean value
    | "cubit" => (fun x => { s with cubit := x }) <$> Schema.boolean value
    | _ => Schema.fail (.noSuchField field)

def record : Schema.RecordKind Settings :=
  { name := "Json2DartSettings", ofEntries, set
    computed := ["body_date_expression", "response_date_expression"] }

/-- The call of `method` with a date pattern, or the default call where there is none. -/
def dateCall (method : String) : Option String → String
  | none | some "" => Model.defaultDateCall
  | some pattern => s!".{method}('{pattern}')"

def bodyDateCall (s : Settings) : String :=
  dateCall "toFormatDateTimeBody" s.bodyDatePattern

def responseDateCall (s : Settings) : String :=
  dateCall "toFormatDateTimeResponse" s.responseDatePattern

end Settings

end DartScaffold
