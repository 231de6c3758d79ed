import DartScaffold.Schema.Record

/-!
The options of one run: the project, what part of it to generate, and which settings to override.
-/

namespace DartScaffold

open Schema (Checked)

structure Options where
  root : String := "."
  projectName : String := ""
  apps : Option String := none
  feature : Option String := none
  page : Option String := none
  layers : Option Bool := none
  replace : Option Bool := none
  unitTest : Option Bool := none
  deriving Repr, DecidableEq

namespace Options

def ofEntries (entries : Entries) : Checked Options :=
  (fun root projectName apps feature page layers replace unitTest _ =>
      Options.mk root projectName apps feature page layers replace unitTest)
    <$> Schema.withDefault entries "root_dir" "." Schema.string
    <*> Schema.withDefault entries "project_name" "" Schema.string
    <*> Schema.withDefault entries "apps_name" none (Schema.optional Schema.string)
    <*> Schema.withDefault entries "feature_name" none (Schema.optional Schema.string)
    <*> Schema.withDefault entries "page_name" none (Schema.optional Schema.string)
    <*> Schema.withDefault entries "api" none (Schema.optional Schema.boolean)
    <*> Schema.withDefault entries "replace" none (Schema.optional Schema.boolean)
    <*> Schema.withDefault entries "unit_test" none (Schema.optional Schema.boolean)
    <*> Schema.onlyKeys entries ["root_dir", "project_name", "apps_name", "feature_name",
      "page_name", "api", "replace", "unit_test"]

def set (o : Options) (field : String) (value : Json) : Checked Options :=
  Checked.under field <|
    match field with
    | "root_dir" => (fun x => { o with root := x }) <$> Schema.string value
    | "project_name" => (fun x => { o with projectName := x }) <$> Schema.string value
    | "apps_name" => (fun x => { o with apps := x }) <$> Schema.optional Schema.string value
    | "feature_name" => (fun x => { o with feature := x }) <$> Schema.optional Schema.string value
    | "page_name" => (fun x => { o with page := x }) <$> Schema.optional Schema.string value
    | "api" => (fun x => { o with layers := x }) <$> Schema.optional Schema.boolean value
    | "replace" => (fun x => { o with replace := x }) <$> Schema.optional Schema.boolean value
    | "unit_test" => (fun x => { o with unitTest := x }) <$> Schema.optional Schema.boolean value
    | _ => Schema.fail (.noSuchField field)

def record : Schema.RecordKind Options := { name := "ProjectConfig", ofEntries, set }

end Options

end DartScaffold
