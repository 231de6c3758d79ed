import DartScaffold.ModelTest.File
import DartScaffold.Proofs.Mapper.Block

/-!
The files made from one sample agree. The response, the entity and the mapper work out names and fields
on their own, but all of them ask one registry, and the first to come makes the names of all objects. So
the order in which they are made does not show in them, and the mapper builds each class with the
parameters that its constructor has.
-/

namespace DartScaffold

open ClassName (Registry Scope)

/-- One of the files made from a sample. -/
inductive Emission where
  | model (policy : Model.Policy) (options : Model.BodyOptions) (relativePath : String)
  | mapper

inductive Emission.Output where
  | model (file : Model.File)
  | mapper (fragment : Aggregate.Fragment)

namespace Emission

def emit (shape : Shape) (r : Registry) (scope : Scope) : Emission → Output × Registry × Scope
  | model policy options relativePath =>
    let (file, r) := Model.emit policy r options relativePath shape
    (.model file, r, scope)
  | mapper =>
    let (fragment, r, scope) := Mapper.emit r scope shape
    (.mapper fragment, r, scope)

/-- All of them, one after the other, on one registry. -/
def emitAll (shape : Shape) : Registry → Scope → List Emission → List Output
  | _, _, [] => []
  | r, scope, emission :: rest =>
    let (output, r, scope) := emission.emit shape r scope
    output :: emitAll shape r scope rest

/-! ### The order -/

/-- Where the emissions of a shape can lead: the names may be allocated, and claimed. -/
structure Reaches (shape : Shape) (r : Registry) (scope : Scope) (r' : Registry) (scope' : Scope) :
    Prop where
  registry : r'.ensureNodes shape.nodes = r.ensureNodes shape.nodes
  scope : scope' = scope ∨
    scope' = (Mapper.extensionTexts (r.ensureNodes shape.nodes) scope shape.nodes).2

variable {shape : Shape} {r r' : Registry} {scope scope' : Scope}

/-- Names that were claimed before are found again. -/
theorem Reaches.extensionTexts (h : Reaches shape r scope r' scope') :
    Mapper.extensionTexts (r.ensureNodes shape.nodes) scope' shape.nodes =
      Mapper.extensionTexts (r.ensureNodes shape.nodes) scope shape.nodes := by
  have hcovers := Registry.covers_ensureNodes r shape.nodes
  obtain ⟨-, hclaimed, htexts⟩ := Mapper.extensionTexts_eq hcovers scope
  rcases h.scope with heq | heq
  · rw [heq]
  · rw [heq, Mapper.extensionTexts_of_claimed hcovers hclaimed, ← htexts]

theorem Reaches.emit (h : Reaches shape r scope r' scope') (emission : Emission) :
    (emission.emit shape r' scope').1 = (emission.emit shape r scope).1 ∧
      Reaches shape r scope (emission.emit shape r' scope').2.1
        (emission.emit shape r' scope').2.2 := by
  cases emission with
  | model policy options relativePath =>
      have hsame : Model.emit policy r' options relativePath shape =
          Model.emit policy r options relativePath shape := by
        simp only [Model.emit, h.registry]
      simp only [Emission.emit, hsame]
      exact ⟨trivial, Registry.ensureNodes_ensureNodes r shape.nodes, h.scope⟩
  | mapper =>
      have hsame : Mapper.emit r' scope' shape = Mapper.emit r scope shape := by
        simp only [Mapper.emit, h.registry, h.extensionTexts]
      simp only [Emission.emit, hsame]
      exact ⟨trivial, Registry.ensureNodes_ensureNodes r shape.nodes, .inr rfl⟩

theorem emitAll_eq (shape : Shape) (r : Registry) (scope : Scope) (order : List Emission) :
    emitAll shape r scope order = order.map fun emission => (emission.emit shape r scope).1 := by
  have hall : ∀ r' scope', Reaches shape r scope r' scope' → emitAll shape r' scope' order =
      order.map fun emission => (emission.emit shape r scope).1 := by
    induction order with
    | nil => exact fun _ _ _ => rfl
    | cons emission order ih =>
        intro r' scope' h
        obtain ⟨houtput, hnext⟩ := h.emit emission
        rw [emitAll, List.map_cons, ← ih _ _ hnext, ← houtput]
  exact hall r scope ⟨rfl, .inl rfl⟩

end Emission

/-! ### The root class -/

theorem ModelTest.entityName_append (stem : String) :
    ModelTest.entityName (stem ++ Artifact.response.suffix) = stem ++ Artifact.entity.suffix := by
  have hlength : (stem ++ Artifact.response.suffix).length - Artifact.response.suffix.length =
      stem.toList.length := by
    simp [String.length_toList]
  rw [ModelTest.entityName, hlength, String.toList_append, List.take_left, String.ofList_toList]

section Object

variable (api : String) (reserved : List String) (fields : Fields)

theorem Model.rootClass?_emit {policy : Model.Policy} {kind : Artifact}
    (hkind : policy.kind.artifact = kind) (options : Model.BodyOptions) (relativePath : String) :
    (Model.emit policy { api, reserved } options relativePath (.object fields)).1.rootClass? =
      some (Dart.classStem api ++ kind.suffix) := by
  have hroot := Registry.className_of_stem? (Registry.stem?_root_object api reserved fields) kind
  have hrender : ∀ text : String, ClassName.Stem.render
      ((Registry.ensureNodes { api, reserved } (Shape.object fields).nodes).apiStem) (.root text)
        kind = text ++ kind.suffix := by
    intro text
    subst hkind
    cases policy.kind <;> rfl
  rw [Registry.render, hrender] at hroot
  rw [← hroot, Model.emit, Model.File.rootClass?, Shape.nodes, Shape.nodesAt, ← hkind]
  rfl

/-- The classes of the objects, with the names that the registry gives them. -/
theorem Model.declares_emit_object {policy : Model.Policy} {kind : Artifact}
    (hkind : policy.kind.artifact = kind) (hbody : policy.kind.isBody = false)
    (relativePath : String) :
    (Model.emit policy { api, reserved } {} relativePath (.object fields)).1.Declares
      ((Shape.object fields).nodes.map (Model.declaration
        ((Registry.ensureNodes { api, reserved } (Shape.object fields).nodes).className kind))) := by
  subst hkind
  refine Model.declares_emit hbody _ relativePath _ fun node hnode => ?_
  exact Mapper.isPlain_className (Registry.safe_ensureNodes_object api reserved fields)
    (Registry.covers_ensureNodes _ _) hnode _

/-- The extensions in the block are those of the objects. -/
theorem Mapper.readBlock_emit {scope : Scope} (hscope : scope.Safe) :
    ∃ mapperOf block, (Mapper.emit { api, reserved } scope (.object fields)).1.blocks =
        [("extensions", block)] ∧
      Mapper.readBlock block = ((Shape.object fields).nodes.flatMap (Mapper.extensionsAtNode
        (Registry.ensureNodes { api, reserved } (Shape.object fields).nodes) mapperOf)).map some := by
  have hcovers := Registry.covers_ensureNodes { api, reserved } (Shape.object fields).nodes
  have hnamed := Registry.safe_ensureNodes_object api reserved fields
  obtain ⟨-, hclaimed, htexts⟩ := Mapper.extensionTexts_eq hcovers scope
  have hne : (Shape.object fields).nodes ≠ [] := by simp [Shape.nodes, Shape.nodesAt]
  refine ⟨_, _, ?_, Mapper.readBlock_nodes hnamed hcovers
    (Mapper.safe_extensionTexts hnamed hcovers hscope) hclaimed hne⟩
  simp only [Mapper.emit, Mapper.sectionName]
  rw [htexts]

end Object

/-! ### Agreement -/

namespace Emission

/-- The files of one sample do not depend on the order in which they are made. The response and the
entity file declare one class for each object, and the mapper has one extension on each of them, which
builds the other one with the parameters that its constructor declares. The extensions of an object in
a field are there as well, and the test file finds the entity's name by that of the response. -/
theorem emissions_agree (api : String) (reserved : List String) (scope : Scope)
    (hscope : scope.Safe) (entries : List (String × Json)) (hkeys : (Json.obj entries).KeysDistinct)
    (dateCall responsePath entityPath : String) :
    let shape := Shape.infer (.obj entries)
    let r : Registry := { api, reserved }
    let responseFile := (Model.emit { kind := .response, dateCall } r {} responsePath shape).1
    let entityFile := (Model.emit { kind := .entity } r {} entityPath shape).1
    (∀ order, emitAll shape r scope order =
        order.map fun emission => (emission.emit shape r scope).1) ∧
      ∃ (responses entities : Path × Fields → Model.Declaration) (mapperOf : Path → String)
        (block : String),
        responseFile.Declares (shape.nodes.map responses) ∧
        entityFile.Declares (shape.nodes.map entities) ∧
        (Mapper.emit r scope shape).1.blocks = [("extensions", block)] ∧
        Mapper.readBlock block = (shape.nodes.flatMap fun node =>
          Mapper.extensionsOf r (mapperOf node.1) (responses node) (entities node)).map some ∧
        ((shape.nodes.flatMap fun node => Mapper.extensionsOf r (mapperOf node.1) (responses node)
          (entities node)).map Mapper.Extension.target).Nodup ∧
        (∀ node ∈ shape.nodes, ∀ field ∈ node.2, ∀ inner, field.2.unwrapped = .object inner →
          ∃ child ∈ shape.nodes, child = (node.1 ++ [field.1], inner) ∧
            ∀ extension ∈ Mapper.extensionsOf r (mapperOf child.1) (responses child)
              (entities child), some extension ∈ Mapper.readBlock block) ∧
        ∃ root, responseFile.rootClass? = some root ∧
          entityFile.rootClass? = some (ModelTest.entityName root) := by
  intro shape r responseFile entityFile
  have hshape : shape = .object (Shape.inferFields entries) := by simp only [shape, Shape.infer]
  have hpaths : (shape.nodes.map Prod.fst).Nodup :=
    Shape.nodup_nodesAt [] shape (Shape.keysDistinct_infer _ hkeys)
  refine ⟨emitAll_eq shape r scope, ?_⟩
  clear_value shape
  subst hshape
  let named := r.ensureNodes (Shape.object (Shape.inferFields entries)).nodes
  have hcovers : named.Covers (Shape.object (Shape.inferFields entries)).nodes :=
    Registry.covers_ensureNodes r _
  have hnamed : named.Safe := Registry.safe_ensureNodes_object api reserved _
  obtain ⟨mapperOf, block, hblock, hread⟩ :=
    Mapper.readBlock_emit api reserved (Shape.inferFields entries) hscope
  -- the API's name, and with it the names of its files, stays as classes are named
  have hextensions : ∀ mapper response entity, Mapper.extensionsOf named mapper response entity =
      Mapper.extensionsOf r mapper response entity := by
    intro mapper response entity
    have hapi : named.api = r.api := (Registry.extends_ensureNodes r _).api
    simp only [Mapper.extensionsOf, Mapper.responseAlias, Mapper.entityAlias, Mapper.fileStem, hapi]
  refine ⟨Model.declaration (named.className .response),
    Model.declaration (named.className .entity), mapperOf, block, ?_, ?_, hblock, ?_, ?_, ?_, ?_⟩
  · exact Model.declares_emit_object api reserved _ rfl rfl responsePath
  · exact Model.declares_emit_object api reserved _ rfl rfl entityPath
  · simp only [← hextensions]
    exact hread
  · simp only [← hextensions]
    exact Mapper.nodup_targets hnamed hcovers hpaths mapperOf
  · rintro node hnode ⟨key, held⟩ hfield inner hinner
    have hchild := Shape.child_mem_nodesAt [] _ hnode hfield hinner
    refine ⟨_, hchild, rfl, fun extension hextension => ?_⟩
    rw [hread]
    refine List.mem_map_of_mem (List.mem_flatMap.mpr ⟨_, hchild, ?_⟩)
    rw [Mapper.extensionsAtNode, hextensions]
    exact hextension
  · refine ⟨Dart.classStem api ++ Artifact.response.suffix, ?_, ?_⟩
    · exact Model.rootClass?_emit api reserved _ rfl {} responsePath
    · rw [ModelTest.entityName_append]
      exact Model.rootClass?_emit api reserved _ rfl {} entityPath

/-- A user with a list of objects in a nested object. -/
def userEntries : List (String × Json) :=
  [("id", .int 1), ("profile", .obj [("tags", .arr [.obj [("name", .str "a")]])])]

theorem emissions_agree_user :
    (Scope.ofApis ["get_user"]).Safe ∧ (Json.obj userEntries).KeysDistinct ∧
      ∀ order, emitAll (Shape.infer (.obj userEntries)) { api := "get_user" }
          (Scope.ofApis ["get_user"]) order =
        order.map fun emission => (emission.emit (Shape.infer (.obj userEntries))
          { api := "get_user" } (Scope.ofApis ["get_user"])).1 := by
  have hscope := ClassName.Scope.safe_ofApis ["get_user"]
  have hkeys : (Json.obj userEntries).KeysDistinct := by
    simp [userEntries, Json.KeysDistinct, Json.ItemsKeysDistinct, Json.EntriesKeysDistinct]
  exact ⟨hscope, hkeys,
    (emissions_agree "get_user" ClassName.reserved _ hscope userEntries hkeys "" "" "").1⟩

end Emission

end DartScaffold
