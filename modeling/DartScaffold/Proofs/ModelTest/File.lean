import DartScaffold.Proofs.ModelTest.Fit

/-!
Test files and the model files beside them. The model and the map of a test are read from its text, the
classes from the text of the model file, and the one is held to the other.
-/

namespace DartScaffold.ModelTest

open Dart (Expr Reads IsPlain)

/-- A list of one, where a test is about a list. -/
def listed (isList : Bool) (e : Expr) : Expr :=
  if isList then .list [e] else e

theorem reads_bracketed {d text : String} {e : Expr} (h : Reads d text e) (isList : Bool) :
    Reads d (bracketed isList text) (listed isList e) := by
  cases isList with
  | false => exact h
  | true => simpa [bracketed, listed] using Dart.reads_list (.cons h .nil)

/-- The model is built from the classes of the file, as its value asks for, and the map is the one that
the model turns into. No two of the classes have the same name. -/
def HeldTo (file : Model.File) (policy : Model.Policy) (qualifier : String)
    (options : Model.BodyOptions) (isList : Bool) (shape : Shape) (value : Entries)
    (model expected : String) : Prop :=
  ∃ (signatures : List Model.Signature) (m x : Expr),
    file.Constructs signatures ∧ (signatures.map Model.Signature.name).Nodup ∧
    Dart.read "" model = some (listed isList m) ∧
    Dart.read policy.dateCall expected = some (listed isList x) ∧
    Fits { qualifier, kind := policy.kind, options, classes := shape.nodes.zip signatures } [] shape
      (.obj value) m ∧
    Encodes policy.kind shape (.obj value) x

theorem conforming_conformed {fields : Fields} (hkeys : (fields.map Prod.fst).Nodup) (sample : Json) :
    Conforming (conformed fields sample) fields := by
  by_cases hnull : Shape.conform (.object fields) sample = .null
  · rw [conformed, hnull]
    exact fun field _ => ⟨.null, (Shape.conform_null field.2).symm⟩
  · obtain ⟨entries, hentries⟩ := Shape.conform_object hnull
    rw [conformed, hentries]
    exact conforming_conformFields hkeys entries

theorem rootLiteral_eq (c : Classes) (options : Model.BodyOptions) (nodes : List (Path × Fields))
    (fields : Fields) (value : Entries) :
    rootLiteral c options fields value = constructorCall c []
      (((options.at []).pathParams.map fun raw =>
          Dart.fieldName raw ++ ": " ++ Dart.stringLiteral raw) ++
        fieldArgs c [] fields ((c.target options nodes).fieldNames [] fields) value) := by
  have hparams : ((Model.members c.policy.kind options [] fields).params.zip options.pathParams).map
      (fun pair => pair.1 ++ ": " ++ Dart.stringLiteral pair.2) =
        options.pathParams.map fun raw => Dart.fieldName raw ++ ": " ++ Dart.stringLiteral raw := by
    rw [Model.members, ← List.map_prod_right_eq_zip, List.map_map]
    rfl
  exact congrArg (fun params => constructorCall c [] (params ++
    fieldArgs c [] fields ((c.target options nodes).fieldNames [] fields) value)) hparams

/-- The map that a test expects reads as the one that the model turns into. -/
theorem exists_reads_mapLiteral (policy : Model.Policy) {fields : Fields}
    (hkeys : (Shape.object fields).KeysDistinct) (sample : Json) :
    ∃ x, Reads policy.dateCall (mapLiteral policy fields (conformed fields sample)) x ∧
      Encodes policy.kind (.object fields) (.obj (conformed fields sample)) x := by
  obtain ⟨items, hitems, hkept, hencode⟩ := exists_entriesEncode policy fields hkeys.1 hkeys.2 _
    (conforming_conformed hkeys.1 sample)
  refine ⟨.map .plain items, ?_, hkept, hencode⟩
  rw [mapLiteral, encodedLiteral]
  simpa [Dart.MapStyle.head] using Dart.reads_map .plain hitems

/-! ### Model files -/

section Registry

open ClassName (Registry)

variable (api : String) (reserved : List String) {fields : Fields}

theorem heldTo_emit (hkeys : (Shape.object fields).KeysDistinct) (policy : Model.Policy)
    {qualifier : String} (hqualifier : IsPlain qualifier)
    (hcallee : ∀ name, qualifier ++ "." ++ name ≠ Dart.dateCallee) (options : Model.BodyOptions)
    (relativePath : String) (sample : Json) (isList : Bool) :
    let emitted := Model.emit policy { api, reserved } options relativePath (.object fields)
    let c : Classes := ⟨policy, emitted.2.className policy.kind.artifact, qualifier⟩
    HeldTo emitted.1 policy qualifier options isList (.object fields) (conformed fields sample)
      (bracketed isList (rootLiteral c options fields (conformed fields sample)))
      (bracketed isList (mapLiteral policy fields (conformed fields sample))) := by
  intro emitted c
  let nodes := (Shape.object fields).nodes
  have hsafe := Registry.safe_ensureNodes_object api reserved fields
  have hcovers := Registry.covers_ensureNodes { api, reserved } nodes
  have hplain : ∀ node ∈ nodes, IsPlain (c.nameOf node.1) :=
    fun node hnode => Mapper.isPlain_className hsafe hcovers hnode _
  have hlegible : c.Legible nodes := ⟨hqualifier, hcallee, hplain⟩
  have hclosed : Closed nodes := fun node hnode field hfield inner =>
    Shape.child_mem_nodesAt [] _ hnode hfield
  have hroot : ([], fields) ∈ nodes := List.mem_cons_self
  have hconforming := conforming_conformed hkeys.1 sample
  obtain ⟨args, hargs, hsublist, hfits⟩ := exists_fieldsFit hlegible hclosed [] fields hkeys.2
    (fun field => hclosed _ hroot field) _ hconforming
    ((c.target options nodes).fieldNames [] fields) (length_fieldNames _ [] fields)
    (nodup_fieldNames _ [] fields)
  obtain ⟨m, hmodel, hfit⟩ := fits_call hlegible hroot hargs hsublist hfits
  obtain ⟨x, hmap, hencodes⟩ := exists_reads_mapLiteral policy hkeys sample
  refine ⟨nodes.map (Model.signature policy c.nameOf options), m, x,
    Model.constructs_emit policy _ options relativePath _ hplain, ?_, ?_,
    (reads_bracketed hmap isList).read, ?_, hencodes⟩
  · have hpaths := Shape.nodup_nodesAt [] _ hkeys
    rw [List.map_map]
    refine List.Nodup.map_on (fun a ha b hb hsame => ?_) hpaths.of_map
    refine List.inj_on_of_nodup_map hpaths ha hb (Classical.byContradiction fun hne => ?_)
    exact Registry.className_ne hsafe hcovers _ ha hb hne hsame
  · rw [rootLiteral_eq c options nodes]
    exact (reads_bracketed hmodel isList).read
  · rw [← List.map_prod_left_eq_zip]
    exact hfit

end Registry

/-! ### Test files -/

/-- The text of a body test with this model and this map. -/
def IsBodyTest (text model expected : String) : Prop :=
  ∃ before toMap, text = fileOf (before ++
    ["    final body = " ++ model ++ ";", "", "    final map = " ++ toMap ++ ";", "",
     "    expect(map, " ++ expected ++ ");", "  \x7d);", "\x7d"])

/-- The text of a response test with this model and this map. -/
def IsResponseTest (text model expected : String) : Prop :=
  ∃ before others toMap after, text = fileOf (before ++
    ["  final response = " ++ model ++ ";", ""] ++ others ++
    caseLines "toMap" "should return a map containing the proper model"
      ["final result = " ++ toMap ++ ";", "expect(result, " ++ expected ++ ");"] ++ after)

theorem isBodyTest_bodyTest (s : Subject) (policy : Model.Policy) (nameOf : Path → String)
    (fields : Fields) (sample : Json) (isList : Bool) (options : Model.BodyOptions) :
    IsBodyTest (bodyTest s policy nameOf fields sample isList options)
      (bracketed isList (rootLiteral ⟨policy, nameOf, "body_" ++ s.fileStem⟩ options fields
        (conformed fields sample)))
      (bracketed isList (mapLiteral policy fields (conformed fields sample))) := by
  refine ⟨[ignoreLine, ""] ++ testImports ++
    [s.packageImport s!"data/models/body/{s.fileStem}_body.dart" ("body_" ++ s.fileStem), ""] ++
    mainStart ++ [s!"  test('{nameOf []} converts to map', () \x7b"],
    if isList then "body.map((e) => e.toMap()).toList()" else "body.toMap()", ?_⟩
  simp [bodyTest, toString]

theorem isResponseTest_responseTest (s : Subject) (policy : Model.Policy) (nameOf : Path → String)
    (fields : Fields) (sample : Json) (isList : Bool) :
    IsResponseTest (responseTest s policy nameOf fields sample isList)
      (bracketed isList (rootLiteral ⟨policy, nameOf, "response_" ++ s.fileStem⟩ {} fields
        (conformed fields sample)))
      (bracketed isList (mapLiteral policy fields (conformed fields sample))) := by
  let e := expressions isList (Dart.literal .typed (.obj (conformed fields sample)))
    s!"response_{s.fileStem}.{nameOf []}" s!"entity_{s.fileStem}.{entityName (nameOf [])}"
  refine ⟨[ignoreLine, "", "import 'dart:convert';", ""] ++ testImports ++
    [s.packageImport s!"data/models/response/{s.fileStem}_response.dart" s!"response_{s.fileStem}",
      s.packageImport s!"domain/entities/{s.fileStem}_entity.dart" s!"entity_{s.fileStem}",
      s!"import 'package:{s.feature}/{s.page}/mapper.dart';", ""] ++ mainStart ++
    [s!"  {e.mapDeclaration}"],
    caseLines "fromMap" "should return a valid model from the sample map"
      [s!"final result = {e.fromMap};", "expect(result, response);"] ++ [""] ++
    caseLines "fromJson" "should return a valid model from the sample JSON"
      [s!"final result = {e.fromJson};", "expect(result, response);"] ++ [""],
    e.toMap,
    [""] ++ caseLines "toJson" "should return a JSON string"
      [s!"final result = {e.toJson};", "expect(result, isA<String>());"] ++ [""] ++
    caseLines "mapper" "should map to the entity and back"
      [s!"final entity = {e.toEntity};", s!"expect(entity, isA<{e.entityType}>());",
       s!"expect({e.toResponse}, response);"] ++ ["\x7d"], ?_⟩
  simp [responseTest, toString, e]

/-! ### Agreement -/

theorem isPlain_qualifier {head : String} (hhead : IsPlain head) (s : Subject) :
    IsPlain (head ++ s.fileStem) :=
  hhead.append (Dart.isPlain_snakeCase s.api)

/-- No model file is imported under a name that starts like that of the date class. -/
theorem callee_ne {head : String} {c : Char} {tail : List Char} (hhead : head.toList = c :: tail)
    (hc : c ≠ 'D') (stem name : String) : head ++ stem ++ "." ++ name ≠ Dart.dateCallee := by
  intro heq
  have hlist := congrArg String.toList heq
  simp only [String.toList_append, hhead, List.cons_append] at hlist
  exact hc (List.cons.inj hlist).1

/-- The tests of a body and of a response fit the classes of the model files made from the same sample.
Every call is one of the class that the file has for the object, with arguments for parameters of its
constructor, in their order; the path parameters are all there, and a field is where the part of the
sample that the model keeps has a value. The map has the keys of each object in their order, in a body
those with a value. -/
theorem tests_fit (api : String) (reserved : List String) (entries : Entries)
    (hkeys : (Json.obj entries).KeysDistinct) (sample : Json) (s : Subject) (isList : Bool)
    (dateCall relativePath : String) :
    let shape := Shape.infer (.obj entries)
    let fields := Shape.inferFields entries
    (∀ options : Model.BodyOptions,
      let policy : Model.Policy := { kind := .body, dateCall }
      let (file, r) := Model.emit policy { api, reserved } options relativePath shape
      ∃ model expected,
        IsBodyTest (bodyTest s policy (r.className .body) fields sample isList options) model
          expected ∧
        HeldTo file policy ("body_" ++ s.fileStem) options isList shape (conformed fields sample) model
          expected) ∧
    (let policy : Model.Policy := { kind := .response, dateCall }
      let (file, r) := Model.emit policy { api, reserved } {} relativePath shape
      ∃ model expected,
        IsResponseTest (responseTest s policy (r.className .response) fields sample isList) model
          expected ∧
        HeldTo file policy ("response_" ++ s.fileStem) {} isList shape (conformed fields sample) model
          expected) := by
  have hshape : Shape.infer (.obj entries) = .object (Shape.inferFields entries) := by rw [Shape.infer]
  have hdistinct : (Shape.object (Shape.inferFields entries)).KeysDistinct :=
    hshape ▸ Shape.keysDistinct_infer _ hkeys
  rw [hshape]
  refine ⟨fun options => ⟨_, _, isBodyTest_bodyTest .., ?_⟩, ⟨_, _, isResponseTest_responseTest .., ?_⟩⟩
  · exact heldTo_emit api reserved hdistinct _ (isPlain_qualifier (by decide) s)
      (fun name => callee_ne rfl (by decide) _ name) options relativePath sample isList
  · exact heldTo_emit api reserved hdistinct _ (isPlain_qualifier (by decide) s)
      (fun name => callee_ne rfl (by decide) _ name) {} relativePath sample isList

/-- An order with a date, with items whose tags differ, and with a part that may be missing. -/
def orderEntries : Entries :=
  [("id", .int 7), ("placed_at", .str "2024-05-01"),
   ("items", .arr [.obj [("sku", .str "a"), ("tags", .arr [])]]), ("note", .null)]

def orderSample : Json :=
  .obj [("items", .arr [.obj [("sku", .str "b"), ("tags", .arr [.obj [("x", .null)], .int 1])],
    .int 3]), ("placed_at", .str "soon"), ("note", .str "gift")]

theorem tests_fit_order :
    (Json.obj orderEntries).KeysDistinct ∧
      let shape := Shape.infer (.obj orderEntries)
      let fields := Shape.inferFields orderEntries
      let s : Subject := { feature := "shop", page := "cart", api := "place_order" }
      let policy : Model.Policy := { kind := .body }
      let options : Model.BodyOptions := { pathParams := ["id"], multipart := true }
      let (file, r) := Model.emit policy { api := "place_order" } options "" shape
      ∃ model expected,
        IsBodyTest (bodyTest s policy (r.className .body) fields orderSample true options) model
          expected ∧
        HeldTo file policy ("body_" ++ s.fileStem) options true shape (conformed fields orderSample)
          model expected := by
  have hkeys : (Json.obj orderEntries).KeysDistinct := by
    simp [orderEntries, Json.KeysDistinct, Json.ItemsKeysDistinct, Json.EntriesKeysDistinct]
  exact ⟨hkeys, (tests_fit "place_order" ClassName.reserved orderEntries hkeys orderSample
    { feature := "shop", page := "cart", api := "place_order" } true Model.defaultDateCall "").1
      { pathParams := ["id"], multipart := true }⟩

end DartScaffold.ModelTest
