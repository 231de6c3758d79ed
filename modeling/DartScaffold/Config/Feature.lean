import DartScaffold.Config.Settings
import DartScaffold.Disk.Location

/-!
Features, their pages, and the configuration files that list them. The entries of a page stay as
they were read, so that a malformed one fails its own API and no other.
-/

namespace DartScaffold

open Schema (Checked Check)

structure Page where
  name : String
  /-- The names of the APIs with their entries. -/
  apis : Entries := []
  deriving Repr, DecidableEq

namespace Page

def apiNames (p : Page) : List String := p.apis.keys

def ofEntries (entries : Entries) : Checked Page :=
  (fun name apis _ => Page.mk name apis)
    <$> Schema.required entries "name" Schema.nonemptyString
    <*> Schema.withDefault entries "apis" [] Schema.dictionary
    <*> Schema.onlyKeys entries ["name", "apis"]

def set (p : Page) (field : String) (value : Json) : Checked Page :=
  Checked.under field <|
    match field with
    | "name" => (fun x => { p with name := x }) <$> Schema.nonemptyString value
    | "apis" => (fun x => { p with apis := x }) <$> Schema.dictionary value
    | _ => Schema.fail (.noSuchField field)

def record : Schema.RecordKind Page :=
  { name := "PageConfig", ofEntries, set, computed := ["api_names"] }

end Page

structure Feature where
  name : String
  directory : String
  /-- The application under `apps/` that the feature belongs to. -/
  apps : Option String := none
  pages : List Page := []
  deriving Repr, DecidableEq

namespace Feature

def pagesOf : Check (List Page) :=
  Schema.list (Schema.record Page.record.name Page.ofEntries)

def ofEntries (entries : Entries) : Checked Feature :=
  (fun name directory apps pages _ => Feature.mk name directory apps pages)
    <$> Schema.required entries "name" Schema.nonemptyString
    <*> Schema.required entries "feature_dir" Schema.string
    <*> Schema.withDefault entries "apps_name" none (Schema.optional Schema.string)
    <*> Schema.withDefault entries "pages" [] pagesOf
    <*> Schema.onlyKeys entries ["name", "feature_dir", "apps_name", "pages"]

def set (f : Feature) (field : String) (value : Json) : Checked Feature :=
  Checked.under field <|
    match field with
    | "name" => (fun x => { f with name := x }) <$> Schema.nonemptyString value
    | "feature_dir" => (fun x => { f with directory := x }) <$> Schema.string value
    | "apps_name" => (fun x => { f with apps := x }) <$> Schema.optional Schema.string value
    | "pages" => (fun x => { f with pages := x }) <$> pagesOf value
    | _ => Schema.fail (.noSuchField field)

def record : Schema.RecordKind Feature := { name := "FeatureConfig", ofEntries, set }

def page? (f : Feature) (name : String) : Option Page :=
  f.pages.find? (·.name == name)

end Feature

structure ConfigFile where
  place : Disk.Location
  apps : Option String
  settings : Settings
  features : List Feature
  deriving Repr, DecidableEq

namespace ConfigFile

def feature? (c : ConfigFile) (name : String) : Option Feature :=
  c.features.find? (·.name == name)

end ConfigFile

end DartScaffold
