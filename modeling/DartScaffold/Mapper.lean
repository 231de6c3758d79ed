import DartScaffold.Aggregate.Fragment
import DartScaffold.Aggregate.Marker
import DartScaffold.ClassName.Registry
import DartScaffold.Model.Expression
import DartScaffold.Text.Case

/-!
Mapper extensions: for each object of a response shape, `toEntity` on the response class and
`toResponse` on the entity class. The classes are those that the registry gives the two model
files of the API.
-/

namespace DartScaffold.Mapper

open ClassName (Registry Scope)
open Dart (Field)

def sectionName : String := "extensions"

def fileName : String := "mapper.dart"

def skeleton : String := Aggregate.anchorMarker sectionName ++ "\n"

def fileStem (r : Registry) : String := Text.snakeCase r.api

def responseAlias (r : Registry) : String := fileStem r ++ "_response"

def entityAlias (r : Registry) : String := fileStem r ++ "_entity"

def imports (r : Registry) : List String :=
  [s!"import 'data/models/response/{fileStem r}_response.dart' as {responseAlias r};",
   s!"import 'domain/entities/{fileStem r}_entity.dart' as {entityAlias r};"]

/-- The method that builds `target` from the fields of the class it is called on. -/
def conversionLines (target method : String) (fields : List Field) : List String :=
  if fields.isEmpty then [s!"  {target} {method}() => const {target}();"]
  else
    [s!"  {target} {method}() => {target}("] ++
      fields.map (fun f =>
        s!"        {f.name}: {Model.fieldConverted method f.shape f.name},") ++
      ["      );"]

/-- Both extensions for one object, given the qualified names of its classes. -/
def extensionText (responseExtension entityExtension response entity : String)
    (fields : List Field) : String :=
  "\n".intercalate <|
    [s!"extension {responseExtension} on {response} \x7b"] ++
    conversionLines entity "toEntity" fields ++
    ["\x7d", "", s!"extension {entityExtension} on {entity} \x7b"] ++
    conversionLines response "toResponse" fields ++
    ["\x7d"]

/-- The extensions for the object at `path`, if the path is allocated. Its mapper name is claimed
on the page. -/
def extensionsAt (r : Registry) (scope : Scope) (path : Path) (node : Fields) :
    Option String × Scope :=
  let (names, scope) := r.extensionNames scope path
  let text := names.map fun (onResponse, onEntity) =>
    extensionText onResponse onEntity
      (responseAlias r ++ "." ++ r.className .response path)
      (entityAlias r ++ "." ++ r.className .entity path)
      (Dart.fieldsAt path [] node)
  (text, scope)

/-- The extensions for a list of objects, in order. -/
def extensionTexts (r : Registry) : Scope → List (Path × Fields) → List String × Scope
  | scope, [] => ([], scope)
  | scope, (path, node) :: rest =>
    let (text, scope) := extensionsAt r scope path node
    let (texts, scope) := extensionTexts r scope rest
    (text.getD "" :: texts, scope)

def emit (r : Registry) (scope : Scope) (shape : Shape) :
    Aggregate.Fragment × Registry × Scope :=
  let nodes := shape.nodes
  let r := r.ensureNodes nodes
  let (texts, scope) := extensionTexts r scope nodes
  ({ kind := .mapper
     api := r.api
     relativePath := fileName
     skeleton := skeleton
     imports := imports r
     blocks := [(sectionName, "\n\n".intercalate texts)] }, r, scope)

end DartScaffold.Mapper
