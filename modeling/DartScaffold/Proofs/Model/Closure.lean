import DartScaffold.Model.File
import DartScaffold.Proofs.ClassName.Nodes
import DartScaffold.Proofs.Model.Mention

/-!
A model file defines the classes that it refers to. The names of the objects are allocated in one
walk over the shape, and a second one writes the classes, in which types and decoders name the
object of a field by its path, through all lists. Both follow the same paths: nothing is allocated
late, and each name in the file is the one of a class that is there (`closed_emit`).
-/

namespace DartScaffold.Model

open ClassName (Registry)
open Dart (Field IsTypeName Within Cites Trail Gap)

/-- The class of an object, with the names of a registry. -/
def nodeText (policy : Policy) (r : Registry) (options : BodyOptions) (node : Path × Fields) :
    String :=
  classText policy (r.className policy.kind.artifact) (options.at node.1) node.1 node.2

/-- The fields of the class of an object. -/
def nodeFields (policy : Policy) (options : BodyOptions) (node : Path × Fields) : List Field :=
  (members policy.kind (options.at node.1) node.1 node.2).fields

/-- What the code of a field refers to, where the objects `nodes` have the classes `nameOf`: the
class of the object that lies below the field's key, if the field holds one, and else none. -/
def Resolves (nameOf : Path → String) (nodes : List (Path × Fields)) (path : Path) (f : Field) :
    Prop :=
  (∃ child ∈ nodes, child.1 = path ++ [f.key] ∧ f.shape.unwrapped = .object child.2 ∧
    ∀ code ∈ fieldCode nameOf f, Cites code [nameOf child.1]) ∨
  (∀ fields, f.shape.unwrapped ≠ .object fields) ∧ ∀ code ∈ fieldCode nameOf f, Cites code []

/-- The file has the classes of the objects `nodes`, in their order, and refers to no others; `r` is
the registry after it was written. -/
structure File.ClosedOver (file : File) (policy : Policy) (r : Registry) (options : BodyOptions)
    (nodes : List (Path × Fields)) : Prop where
  content : file.content = Text.joinLines (importLines policy.kind options.multipart) ++ "\n\n" ++
    "\n\n".intercalate (nodes.map (nodeText policy r options)) ++ "\n"
  read : ∀ node ∈ nodes, readSignature (nodeText policy r options node) =
    some (signature policy (r.className policy.kind.artifact) options node)
  classNames : file.classNames = nodes.map fun node => r.className policy.kind.artifact node.1
  distinct : file.classNames.Nodup
  root : nodes.head?.map Prod.fst = some [] ∧
    file.rootClass? = some (r.className policy.kind.artifact [])
  /-- Every object was allocated once, and nothing else was. -/
  allocated : r.stems.map Prod.fst = nodes.map Prod.fst
  /-- A class that is written on its own, with names allocated on demand, demands none. -/
  settled : ∀ node ∈ nodes, emitClass policy r (options.at node.1) node.1 node.2 =
    (nodeText policy r options node, r)
  fields : ∀ node ∈ nodes, (nodeFields policy options node).map (fun f => (f.key, f.shape)) = node.2
  /-- The type of a field is in the text of its class, and its decoders if the class has any. -/
  printed : ∀ node ∈ nodes, ∀ f ∈ nodeFields policy options node,
    ∀ code ∈ fieldCode (r.className policy.kind.artifact) f,
      code = fieldType (r.className policy.kind.artifact) f ∨ policy.kind.readsJson = true →
        code.toList <:+: (nodeText policy r options node).toList
  resolves : ∀ node ∈ nodes, ∀ f ∈ nodeFields policy options node,
    Resolves (r.className policy.kind.artifact) nodes node.1 f
  /-- No text in the file names another class, as long as the call for dates is code that does not. -/
  within : Trail policy.dateCall → Within file.content file.classNames

section Nodes

variable {policy : Policy} {options : BodyOptions} {shape : Shape} {node : Path × Fields}

/-- An object in a field is one of the shape, and its path is the one that the field has. -/
theorem child_of_mem_nodeFields (hnode : node ∈ shape.nodes) {f : Field}
    (hf : f ∈ nodeFields policy options node) {inner : Fields}
    (h : f.shape.unwrapped = .object inner) :
    f.path = node.1 ++ [f.key] ∧ (f.path, inner) ∈ shape.nodes := by
  have hpath : f.path = node.1 ++ [f.key] := Dart.path_of_mem_fieldsAt _ _ _ f hf
  have hentry : (f.key, f.shape) ∈ node.2 := by
    rw [← Dart.entries_fieldsAt node.1 _ node.2]
    exact List.mem_map_of_mem hf
  rw [hpath]
  exact ⟨rfl, Shape.child_mem_nodesAt [] shape hnode hentry h⟩

variable {nameOf : Path → String} (hlegal : ∀ node ∈ shape.nodes, IsTypeName (nameOf node.1))

include hlegal

theorem held_of_mem_nodeFields (hnode : node ∈ shape.nodes) {f : Field}
    (hf : f ∈ nodeFields policy options node) :
    ∀ name ∈ heldClass (nameOf f.path) f.shape,
      IsTypeName name ∧ name ∈ shape.nodes.map fun node => nameOf node.1 := by
  cases hheld : f.shape.unwrapped with
  | object inner =>
      obtain ⟨-, hchild⟩ := child_of_mem_nodeFields hnode hf hheld
      rw [heldClass_of_object hheld]
      exact List.forall_mem_singleton.mpr ⟨hlegal _ hchild, List.mem_map_of_mem hchild⟩
  | _ =>
      rw [heldClass_eq_nil (by simp [hheld])]
      exact List.forall_mem_nil _

theorem resolves_of_mem_nodeFields (hnode : node ∈ shape.nodes) {f : Field}
    (hf : f ∈ nodeFields policy options node) : Resolves nameOf shape.nodes node.1 f := by
  have hcode := cites_of_mem_fieldCode fun name hname =>
    (held_of_mem_nodeFields hlegal hnode hf name hname).1
  cases hheld : f.shape.unwrapped with
  | object inner =>
      obtain ⟨hpath, hchild⟩ := child_of_mem_nodeFields hnode hf hheld
      rw [heldClass_of_object hheld] at hcode
      exact .inl ⟨_, hchild, hpath, hheld, hcode⟩
  | _ =>
      rw [heldClass_eq_nil (by simp [hheld])] at hcode
      exact .inr ⟨by simp [hheld], hcode⟩

end Nodes

/-- The class of an object stands in the file as it is. -/
theorem infix_emit (policy : Policy) (r : Registry) (options : BodyOptions) (relativePath : String)
    {shape : Shape} {node : Path × Fields} (hnode : node ∈ shape.nodes) :
    (nodeText policy (r.ensureNodes shape.nodes) options node).toList <:+:
      (emit policy r options relativePath shape).1.content.toList := by
  have hclass : nodeText policy (r.ensureNodes shape.nodes) options node ∈
      shape.nodes.map (nodeText policy (r.ensureNodes shape.nodes) options) :=
    List.mem_map_of_mem hnode
  exact (infix_intercalate "\n\n" hclass).trans (infix_between _ _ _)

theorem within_importLines (kind : Kind) (multipart : Bool) (names : List String) :
    Within (Text.joinLines (importLines kind multipart)) names := by
  have hnewline : Gap "\n" := by decide
  refine Dart.within_intercalate hnewline (within_fixed (List.forall_mem_append.mpr
    ⟨List.forall_mem_append.mpr ⟨forall_mem_ite (by decide), forall_mem_ite (by decide)⟩, by decide⟩))

theorem within_content {policy : Policy} {r : Registry} {shape : Shape}
    (hlegal : ∀ node ∈ shape.nodes, IsTypeName (r.className policy.kind.artifact node.1))
    (hdate : Trail policy.dateCall) (options : BodyOptions) :
    Within (Text.joinLines (importLines policy.kind options.multipart) ++ "\n\n" ++
        "\n\n".intercalate (shape.nodes.map (nodeText policy r options)) ++ "\n")
      (shape.nodes.map fun node => r.className policy.kind.artifact node.1) := by
  have hclasses : ∀ text ∈ shape.nodes.map (nodeText policy r options),
      Within text (shape.nodes.map fun node => r.className policy.kind.artifact node.1) := by
    refine List.forall_mem_map.mpr fun node hnode => ?_
    refine within_classText hdate (hlegal node hnode) (List.mem_map_of_mem hnode) (known_members ?_)
    exact fun f hf => held_of_mem_nodeFields hlegal hnode hf
  have hblank : Gap "\n\n" := by decide
  have hend : Within "\n" (shape.nodes.map fun node => r.className policy.kind.artifact node.1) :=
    within_of_nil (by decide)
  exact ((within_importLines _ _ _).around hblank
    (Dart.within_intercalate hblank hclasses)).append hend (.inr (by decide))

/-- On its own a class finds the names of the objects in its fields. -/
theorem emitClass_of_covers {policy : Policy} {r : Registry} {shape : Shape}
    (hcovers : r.Covers shape.nodes) (options : BodyOptions) {node : Path × Fields}
    (hnode : node ∈ shape.nodes) :
    emitClass policy r (options.at node.1) node.1 node.2 = (nodeText policy r options node, r) := by
  rw [emitClass, Registry.foldl_ensurePath]
  · rfl
  · refine List.forall_mem_cons.mpr ⟨hcovers node hnode, fun path hpath => ?_⟩
    obtain ⟨⟨key, held⟩, hentry, hsome⟩ := List.mem_filterMap.mp hpath
    dsimp only at hsome
    split at hsome
    · rename_i inner hheld
      obtain rfl : node.1 ++ [key] = path := by simpa using hsome
      exact hcovers _ (Shape.child_mem_nodesAt [] shape hnode hentry hheld)
    · contradiction

/-- A file made from a sample on a fresh registry has one class for each object of the sample, an
object before those inside it, with distinct names of which the first is the root class. Whatever
the code of a field says about the object that it holds, its type or how it and the elements of its
lists are read, names the class that the same file has for this object; nothing in the file names a
class that is not there. -/
theorem closed_emit (api : String) (reserved : List String) (entries : List (String × Json))
    (hkeys : (Json.obj entries).KeysDistinct) (policy : Policy) (options : BodyOptions)
    (relativePath : String) :
    let shape := Shape.infer (.obj entries)
    let emitted := emit policy { api, reserved } options relativePath shape
    emitted.1.ClosedOver policy emitted.2 options shape.nodes := by
  intro shape emitted
  let r := Registry.ensureNodes { api, reserved } shape.nodes
  let nameOf := r.className policy.kind.artifact
  have hshape : shape = .object (Shape.inferFields entries) := by simp only [shape, Shape.infer]
  have hpaths : (shape.nodes.map Prod.fst).Nodup :=
    Shape.nodup_nodesAt [] shape (Shape.keysDistinct_infer _ hkeys)
  have hcovers : r.Covers shape.nodes := Registry.covers_ensureNodes _ _
  have hsafe : r.Safe := by
    simp only [r, hshape]
    exact Registry.safe_ensureNodes_object api reserved _
  have hlegal : ∀ node ∈ shape.nodes, IsTypeName (nameOf node.1) := by
    intro node hnode
    obtain ⟨stem, hstem⟩ := hcovers node hnode
    exact Registry.isTypeName_className hsafe hstem _
  have hhead : shape.nodes.head? = some ([], Shape.inferFields entries) := by
    rw [hshape, Shape.nodes, Shape.nodesAt]
    rfl
  have hroot : (shape.nodes.map fun node => nameOf node.1).head? = some (nameOf []) := by
    rw [List.head?_map, hhead]
    rfl
  -- on a fresh registry the walk over the objects makes all the names, one for each path
  have hstems : r.stems.map Prod.fst = ([] : List Path) ++ shape.nodes.map Prod.fst :=
    Registry.map_fst_stems_ensureNodes (by simpa using hpaths)
  exact {
    content := rfl
    read := fun node hnode => readSignature_classText (hlegal node hnode).isPlain
    classNames := rfl
    distinct := Registry.nodup_classNames hsafe hcovers hpaths _
    root := ⟨by rw [hhead]; rfl, hroot⟩
    allocated := hstems
    settled := fun node hnode => emitClass_of_covers hcovers options hnode
    fields := fun node _ => Dart.entries_fieldsAt node.1 _ node.2
    printed := fun node _ f hf => infix_of_mem_fieldCode hf
    resolves := fun node hnode f hf => resolves_of_mem_nodeFields hlegal hnode hf
    within := fun hdate => within_content hlegal hdate options }

/-- A board with an object in an object, and with one in a list of lists. -/
def boardEntries : List (String × Json) :=
  [("owner", .obj [("team", .obj [("since", .str "2024-05-01")])]),
   ("rows", .arr [.arr [.obj [("owner", .obj [("id", .int 1)])]]])]

theorem closed_emit_board :
    (Json.obj boardEntries).KeysDistinct ∧ Trail defaultDateCall ∧
      let shape := Shape.infer (.obj boardEntries)
      let emitted := emit { kind := .response } { api := "get_board" } {} "" shape
      emitted.1.ClosedOver { kind := .response } emitted.2 {} shape.nodes ∧
        Within emitted.1.content emitted.1.classNames := by
  have hkeys : (Json.obj boardEntries).KeysDistinct := by
    simp [boardEntries, Json.KeysDistinct, Json.ItemsKeysDistinct, Json.EntriesKeysDistinct]
  have hdate : Trail defaultDateCall := by decide
  have hclosed := closed_emit "get_board" ClassName.reserved boardEntries hkeys { kind := .response }
    {} ""
  exact ⟨hkeys, hdate, hclosed, hclosed.within hdate⟩

end DartScaffold.Model
