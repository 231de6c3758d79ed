import DartScaffold.Api.Basic
import DartScaffold.Dart.Identifier
import DartScaffold.Failure

/-!
What the layers of a page say about one API: its names, the types that its call takes and gives,
and the lines that all of its methods share.
-/

namespace DartScaffold.Layer

structure Context where
  api : Api
  page : String
  project : String
  apps : Option String := none
  /-- The body sample is a list. -/
  bodyList : Bool := false
  /-- The response sample is a list. -/
  responseList : Bool := false
  /-- Headers that go with every call. -/
  headers : Option Entries := none

namespace Context

def apiFile (c : Context) : String := Text.snakeCase c.api.name

def apiClass (c : Context) : String := Text.pascalCase c.api.name

def apiMethod (c : Context) : String := Text.camelCase c.api.name

def pageFile (c : Context) : String := Text.snakeCase c.page

def pageClass (c : Context) : String := Text.pascalCase c.page

/-- The class of the answer: a stream of events or one future value. -/
def futureClass (c : Context) : String :=
  if c.api.isStream then "Stream" else "Future"

def listOf (isList : Bool) (name : String) : String :=
  if isList then s!"List<{name}>" else name

def bodyClass (c : Context) : String :=
  listOf c.bodyList (c.apiClass ++ "Body")

/-- The type of the answer, where a model has `suffix` after the name of the API. -/
def answerClass (c : Context) (suffix : String) : String :=
  match c.api.returnData with
  | .model => listOf c.responseList (c.apiClass ++ suffix)
  | .header => "Map<String, String>"
  | .bodyBytes => "Uint8List"
  | .bodyString => "String"
  | .statusCode => "int"
  | .raw => if c.api.isStream then "String" else "Response"

def responseClass (c : Context) : String := c.answerClass "Response"

def entityClass (c : Context) : String := c.answerClass "Entity"

def eitherClass (c : Context) : String :=
  s!"{c.futureClass}<Either<MorphemeFailure, {c.entityClass}>>"

/-- The expression for the URL. Its parameters are read from the body, which must be an object. -/
def endpoint (c : Context) : Except Failure String :=
  let apps := Text.pascalCase (c.apps.getD "")
  let name := s!"{Text.pascalCase c.project}Endpoints.{c.apiMethod}{apps}"
  let params := c.api.pathParams
  if params.isEmpty then .ok name
  else if c.bodyList then
    .error (.config .paramsNeedObject [("api", .str c.api.name), ("path", .str c.api.path)])
  else
    let args := ", ".intercalate (params.map fun p => "body." ++ Dart.fieldName p)
    .ok s!"{name}({args})"

/-- A method's head with its parameters, up to `ending`. -/
def signature (c : Context) (type name ending : String) : List String :=
  [s!"  {type} {name}(",
   s!"    {c.bodyClass} body, \x7b",
   "    Map<String, String>? headers,"] ++
  (if c.api.usesCache then ["    CacheStrategy? cacheStrategy,"] else []) ++
  [s!"  \x7d){ending}"]

/-- The parameters of a method handed on to the next layer. -/
def forwarded (c : Context) (indent : String) : List String :=
  [indent ++ "body,", indent ++ "headers: headers,"] ++
  (if c.api.usesCache then [indent ++ "cacheStrategy: cacheStrategy,"] else [])

/-- The imports of the body's and the entity's file, from the given directories. -/
def modelImports (c : Context) (bodies : String) (entities : Option String) : List String :=
  (if c.api.returnData = .bodyBytes then ["import 'dart:typed_data';"] else []) ++
  [s!"import '{bodies}/{c.apiFile}_body.dart';"] ++
  match entities with
  | some directory =>
    if c.api.returnsModel then [s!"import '{directory}/{c.apiFile}_entity.dart';"] else []
  | none => []

/-- How the body of a method begins. -/
def asyncEnding (c : Context) : String :=
  if c.api.isStream then " async* \x7b" else " async \x7b"

end Context

def coreImport : String := "import 'package:core/core.dart';"

def interfaceSection : String := "interface"

def implementationSection : String := "implementation"

end DartScaffold.Layer
