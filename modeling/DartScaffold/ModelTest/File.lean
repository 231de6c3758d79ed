import DartScaffold.ModelTest.Literal
import DartScaffold.Text.Case

/-!
Dart test files that hold the generated models to the samples they were made from.
-/

namespace DartScaffold.ModelTest

/-- The API whose models are tested. -/
structure Subject where
  feature : String
  page : String
  api : String

namespace Subject

def fileStem (s : Subject) : String := Text.snakeCase s.api

def bodyPath (s : Subject) : String :=
  s!"data/models/body/{s.fileStem}_body_test.dart"

def responsePath (s : Subject) : String :=
  s!"data/models/response/{s.fileStem}_response_test.dart"

def packageImport (s : Subject) (file qualifier : String) : String :=
  s!"import 'package:{s.feature}/{s.page}/{file}' as {qualifier};"

end Subject

def ignoreLine : String :=
  "// ignore_for_file: prefer_const_constructors, " ++
    "prefer_const_literals_to_create_immutables, unused_import"

def testImports : List String :=
  ["import 'package:core/core.dart';",
   "import 'package:dev_dependency_manager/dev_dependency_manager.dart';"]

def mainStart : List String :=
  ["Future<void> main() async \x7b", "  initializeDateFormatting();", ""]

def bracketed (isList : Bool) (text : String) : String :=
  if isList then "[" ++ text ++ "]" else text

/-- A file of these lines, each ended by a line feed. -/
def fileOf (lines : List String) : String :=
  "\n".intercalate lines ++ "\n"

/-- The test of a body; `nameOf` gives the names of its classes. -/
def bodyTest (s : Subject) (policy : Model.Policy) (nameOf : Path → String) (fields : Fields)
    (sample : Json) (isList : Bool) (options : Model.BodyOptions) : String :=
  let qualifier := s!"body_{s.fileStem}"
  let value := conformed fields sample
  let model := bracketed isList (rootLiteral ⟨policy, nameOf, qualifier⟩ options fields value)
  let expected := bracketed isList (mapLiteral policy fields value)
  let toMap := if isList then "body.map((e) => e.toMap()).toList()" else "body.toMap()"
  fileOf <|
    [ignoreLine, ""] ++ testImports ++
    [s.packageImport s!"data/models/body/{s.fileStem}_body.dart" qualifier, ""] ++ mainStart ++
    [s!"  test('{nameOf []} converts to map', () \x7b",
     s!"    final body = {model};",
     "",
     s!"    final map = {toMap};",
     "",
     s!"    expect(map, {expected});",
     "  \x7d);",
     "\x7d"]

/-- One group with one test. -/
def caseLines (group description : String) (body : List String) : List String :=
  [s!"  group('{group}', () \x7b", s!"    test('{description}', () \x7b"] ++
    body.map ("      " ++ ·) ++ ["    \x7d);", "  \x7d);"]

/-- The expressions that a response test compares, for one object or for a list of one. -/
structure Expressions where
  mapDeclaration : String
  fromMap : String
  fromJson : String
  toMap : String
  toJson : String
  toEntity : String
  entityType : String
  toResponse : String

def expressions (isList : Bool) (raw response entity : String) : Expressions :=
  if isList then
    { mapDeclaration := s!"final List<Map<String, dynamic>> map = [{raw}];"
      fromMap := s!"map.map((e) => {response}.fromMap(e)).toList()"
      fromJson :=
        s!"(jsonDecode(jsonEncode(map)) as List).map((e) => {response}.fromMap(e)).toList()"
      toMap := "response.map((e) => e.toMap()).toList()"
      toJson := "jsonEncode(response.map((e) => e.toMap()).toList())"
      toEntity := "response.map((e) => e.toEntity()).toList()"
      entityType := s!"List<{entity}>"
      toResponse := "entity.map((e) => e.toResponse()).toList()" }
  else
    { mapDeclaration := s!"final Map<String, dynamic> map = {raw};"
      fromMap := s!"{response}.fromMap(map)"
      fromJson := s!"{response}.fromJson(jsonEncode(map))"
      toMap := "response.toMap()"
      toJson := "response.toJson()"
      toEntity := "response.toEntity()"
      entityType := entity
      toResponse := "entity.toResponse()" }

/-- The entity's name by that of the response: the same up to the suffix. -/
def entityName (response : String) : String :=
  String.ofList (response.toList.take (response.length - Artifact.response.suffix.length)) ++
    Artifact.entity.suffix

/-- The test of a response and of its mapper. -/
def responseTest (s : Subject) (policy : Model.Policy) (nameOf : Path → String)
    (fields : Fields) (sample : Json) (isList : Bool) : String :=
  let qualifier := s!"response_{s.fileStem}"
  let entityQualifier := s!"entity_{s.fileStem}"
  let value := conformed fields sample
  let model := bracketed isList (rootLiteral ⟨policy, nameOf, qualifier⟩ {} fields value)
  let expected := bracketed isList (mapLiteral policy fields value)
  let e := expressions isList (Dart.literal .typed (.obj value))
    s!"{qualifier}.{nameOf []}" s!"{entityQualifier}.{entityName (nameOf [])}"
  fileOf <|
    [ignoreLine, "", "import 'dart:convert';", ""] ++ testImports ++
    [s.packageImport s!"data/models/response/{s.fileStem}_response.dart" qualifier,
     s.packageImport s!"domain/entities/{s.fileStem}_entity.dart" entityQualifier,
     s!"import 'package:{s.feature}/{s.page}/mapper.dart';",
     ""] ++ mainStart ++
    [s!"  {e.mapDeclaration}", s!"  final response = {model};", ""] ++
    caseLines "fromMap" "should return a valid model from the sample map"
      [s!"final result = {e.fromMap};", "expect(result, response);"] ++ [""] ++
    caseLines "fromJson" "should return a valid model from the sample JSON"
      [s!"final result = {e.fromJson};", "expect(result, response);"] ++ [""] ++
    caseLines "toMap" "should return a map containing the proper model"
      [s!"final result = {e.toMap};", s!"expect(result, {expected});"] ++ [""] ++
    caseLines "toJson" "should return a JSON string"
      [s!"final result = {e.toJson};", "expect(result, isA<String>());"] ++ [""] ++
    caseLines "mapper" "should map to the entity and back"
      [s!"final entity = {e.toEntity};", s!"expect(entity, isA<{e.entityType}>());",
       s!"expect({e.toResponse}, response);"] ++
    ["\x7d"]

end DartScaffold.ModelTest
