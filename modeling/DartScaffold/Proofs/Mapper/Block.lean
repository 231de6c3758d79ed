import DartScaffold.Proofs.ClassName.Nodes
import DartScaffold.Proofs.ClassName.Scope
import DartScaffold.Proofs.Mapper.Extension
import DartScaffold.Proofs.Model.Declaration

/-!
The mapper block of one sample. Its text is made from the names that are claimed when the mapper is
done, so a second mapper on the same page finds its own names and writes the same text. Read back, the
block has two extensions for each object, and no class has more than one.
-/

namespace DartScaffold.Mapper

open ClassName (Registry Scope)
open Dart (IsPlain Field)

variable {r : Registry} {scope scope' : Scope} {nodes : List (Path × Fields)}

/-- The name that the extensions of an object start with. -/
def mapperName (r : Registry) (scope : Scope) (path : Path) : String :=
  (scope.claims.lookup (r.api, path)).getD ""

def responseClass (r : Registry) (path : Path) : String :=
  responseAlias r ++ "." ++ r.className .response path

def entityClass (r : Registry) (path : Path) : String :=
  entityAlias r ++ "." ++ r.className .entity path

/-- Both extensions of an object whose mapper name is claimed. -/
def nodeText (r : Registry) (scope : Scope) (node : Path × Fields) : String :=
  extensionText (mapperName r scope node.1 ++ "ResponseMapper")
    (mapperName r scope node.1 ++ "EntityMapper") (responseClass r node.1) (entityClass r node.1)
    (Dart.fieldsAt node.1 [] node.2)

/-- Every object has a mapper name. -/
def Claimed (r : Registry) (scope : Scope) (nodes : List (Path × Fields)) : Prop :=
  ∀ node ∈ nodes, ∃ name, scope.claims.lookup (r.api, node.1) = some name

theorem mapperName_extends (h : scope.Extends scope') {path : Path} {name : String}
    (hname : scope.claims.lookup (r.api, path) = some name) :
    mapperName r scope' path = mapperName r scope path := by
  rw [mapperName, mapperName, h.lookup hname, hname]

theorem extensionsAt_eq {path : Path} {stem : ClassName.Stem} (hstem : r.stem? path = some stem)
    (scope : Scope) (fields : Fields) :
    extensionsAt r scope path fields =
      (some (nodeText r (scope.claim (r.api, path) (r.render stem .mapper)).2 (path, fields)),
        (scope.claim (r.api, path) (r.render stem .mapper)).2) := by
  have hname := Scope.lookup_claim scope (r.api, path) (r.render stem .mapper)
  simp [extensionsAt, Registry.extensionNames, Registry.lookup, hstem, Registry.publicName,
    nodeText, mapperName, hname, responseClass, entityClass]

/-- What the mapper writes, by the names that are claimed in the end. -/
theorem extensionTexts_eq (h : r.Covers nodes) (scope : Scope) :
    scope.Extends (extensionTexts r scope nodes).2 ∧
      Claimed r (extensionTexts r scope nodes).2 nodes ∧
      (extensionTexts r scope nodes).1 = nodes.map (nodeText r (extensionTexts r scope nodes).2) := by
  induction nodes generalizing scope with
  | nil => exact ⟨.refl scope, by simp [Claimed], rfl⟩
  | cons node nodes ih =>
      obtain ⟨path, fields⟩ := node
      obtain ⟨⟨stem, hstem⟩, hrest⟩ := List.forall_mem_cons.mp h
      have hname := Scope.lookup_claim scope (r.api, path) (r.render stem .mapper)
      obtain ⟨hgrows, hclaimed, htexts⟩ :=
        ih hrest (scope.claim (r.api, path) (r.render stem .mapper)).2
      rw [extensionTexts, extensionsAt_eq hstem]
      refine ⟨(Scope.extends_claim _ _ _).trans hgrows,
        List.forall_mem_cons.mpr ⟨⟨_, hgrows.lookup hname⟩, hclaimed⟩, ?_⟩
      rw [List.map_cons, ← htexts, nodeText, nodeText, mapperName_extends hgrows hname]
      rfl

/-- A mapper whose names are claimed claims nothing more. -/
theorem extensionTexts_of_claimed (h : r.Covers nodes) (hclaimed : Claimed r scope nodes) :
    extensionTexts r scope nodes = (nodes.map (nodeText r scope), scope) := by
  induction nodes with
  | nil => rfl
  | cons node nodes ih =>
      obtain ⟨path, fields⟩ := node
      obtain ⟨⟨stem, hstem⟩, hrest⟩ := List.forall_mem_cons.mp h
      obtain ⟨⟨name, hname⟩, hclaimed⟩ := List.forall_mem_cons.mp hclaimed
      have hclaim : (scope.claim (r.api, path) (r.render stem .mapper)).2 = scope := by
        rw [Scope.claim, hname]
      rw [extensionTexts, extensionsAt_eq hstem, hclaim]
      dsimp only
      rw [ih hrest hclaimed]
      rfl

theorem safe_extensionTexts (hr : r.Safe) (h : r.Covers nodes) (hscope : scope.Safe) :
    (extensionTexts r scope nodes).2.Safe := by
  induction nodes generalizing scope with
  | nil => exact hscope
  | cons node nodes ih =>
      obtain ⟨path, fields⟩ := node
      obtain ⟨⟨stem, hstem⟩, hrest⟩ := List.forall_mem_cons.mp h
      have hlegal := ClassName.Stem.isTypeName_render (Dart.isTypeName_classStem r.api)
        (hr.legal path stem (Registry.mem_of_stem? hstem)) .mapper
      rw [extensionTexts, extensionsAt_eq hstem]
      exact ih hrest (hscope.claim _ hlegal)

/-- The extensions on both classes of an object: each builds the other class, with the parameters that
its constructor has. -/
def extensionsOf (r : Registry) (mapper : String) (response entity : Model.Declaration) :
    List Extension :=
  [{ name := mapper ++ "ResponseMapper"
     target := responseAlias r ++ "." ++ response.name
     method := "toEntity()"
     result := entityAlias r ++ "." ++ entity.name
     built := entityAlias r ++ "." ++ entity.name
     arguments := entity.parameters },
   { name := mapper ++ "EntityMapper"
     target := entityAlias r ++ "." ++ entity.name
     method := "toResponse()"
     result := responseAlias r ++ "." ++ response.name
     built := responseAlias r ++ "." ++ response.name
     arguments := response.parameters }]

/-! ### The block, read back -/

theorem isPlain_className (hr : r.Safe) (h : r.Covers nodes) {node : Path × Fields}
    (hnode : node ∈ nodes) (kind : Artifact) : IsPlain (r.className kind node.1) := by
  obtain ⟨stem, hstem⟩ := h node hnode
  exact (Registry.isTypeName_className hr hstem kind).isPlain

theorem isPlain_responseClass (hr : r.Safe) (h : r.Covers nodes) {node : Path × Fields}
    (hnode : node ∈ nodes) : IsPlain (responseClass r node.1) := by
  have hending : IsPlain "_response" := by decide
  have hdot : IsPlain "." := by decide
  exact (((Dart.isPlain_snakeCase r.api).append hending).append hdot).append
    (isPlain_className hr h hnode .response)

theorem isPlain_entityClass (hr : r.Safe) (h : r.Covers nodes) {node : Path × Fields}
    (hnode : node ∈ nodes) : IsPlain (entityClass r node.1) := by
  have hending : IsPlain "_entity" := by decide
  have hdot : IsPlain "." := by decide
  exact (((Dart.isPlain_snakeCase r.api).append hending).append hdot).append
    (isPlain_className hr h hnode .entity)

theorem isPlain_mapperName (hscope : scope.Safe) (hclaimed : Claimed r scope nodes)
    {node : Path × Fields} (hnode : node ∈ nodes) : IsPlain (mapperName r scope node.1) := by
  obtain ⟨name, hname⟩ := hclaimed node hnode
  rw [mapperName, hname]
  exact (hscope.legal name (List.mem_map.mpr ⟨_, Scope.mem_of_lookup hname, rfl⟩)).isPlain

/-- The two extensions of an object as paragraphs. -/
def paragraphsOf (r : Registry) (scope : Scope) (node : Path × Fields) : List (List String) :=
  [extensionLines (mapperName r scope node.1 ++ "ResponseMapper") (responseClass r node.1)
      (entityClass r node.1) "toEntity" (Dart.fieldsAt node.1 [] node.2),
    extensionLines (mapperName r scope node.1 ++ "EntityMapper") (entityClass r node.1)
      (responseClass r node.1) "toResponse" (Dart.fieldsAt node.1 [] node.2)]

/-- The extensions of an object, by the declarations of its two classes. -/
def extensionsAtNode (r : Registry) (mapperOf : Path → String) (node : Path × Fields) :
    List Extension :=
  extensionsOf r (mapperOf node.1) (Model.declaration (r.className .response) node)
    (Model.declaration (r.className .entity) node)

section Node

variable {node : Path × Fields} (hr : r.Safe) (h : r.Covers nodes) (hscope : scope.Safe)
  (hclaimed : Claimed r scope nodes) (hnode : node ∈ nodes)

include hr h hscope hclaimed hnode

theorem readExtension_paragraphsOf :
    (paragraphsOf r scope node).map readExtension = (extensionsAtNode r (mapperName r scope) node).map some := by
  have hname := isPlain_mapperName hscope hclaimed hnode
  have hresponse := isPlain_responseClass hr h hnode
  have hentity := isPlain_entityClass hr h hnode
  have hfields : ∀ f ∈ Dart.fieldsAt node.1 [] node.2, IsPlain f.name :=
    fun _ => Dart.isPlain_of_mem_fieldsAt
  have hto : IsPlain "toEntity" := by decide
  have hfrom : IsPlain "toResponse" := by decide
  have honResponse := readExtension_extensionLines
    (hname.append (show IsPlain "ResponseMapper" by decide)) hresponse hentity hto hfields
  have honEntity := readExtension_extensionLines
    (hname.append (show IsPlain "EntityMapper" by decide)) hentity hresponse hfrom hfields
  rw [paragraphsOf, List.map_cons, List.map_cons, honResponse, honEntity]
  rfl

theorem isClear_paragraphsOf :
    ∀ p ∈ paragraphsOf r scope node, ∀ line ∈ p, Dart.IsClear line := by
  have hname := isPlain_mapperName hscope hclaimed hnode
  have hresponse := isPlain_responseClass hr h hnode
  have hentity := isPlain_entityClass hr h hnode
  have hfields : ∀ f ∈ Dart.fieldsAt node.1 [] node.2, IsPlain f.name :=
    fun _ => Dart.isPlain_of_mem_fieldsAt
  refine List.forall_mem_cons.mpr ⟨?_, List.forall_mem_singleton.mpr ?_⟩
  · exact isClear_extensionLines (hname.append (by decide)) hresponse hentity (by decide) hfields
  · exact isClear_extensionLines (hname.append (by decide)) hentity hresponse (by decide) hfields

end Node

theorem intercalate_nodeText (r : Registry) (scope : Scope) (nodes : List (Path × Fields)) :
    "\n\n".intercalate (nodes.map (nodeText r scope)) =
      "\n\n".intercalate ((nodes.flatMap (paragraphsOf r scope)).map Text.joinLines) := by
  rw [List.map_flatMap, Text.intercalate_flatMap _ (by simp [paragraphsOf])]
  exact congrArg _ (List.map_congr_left fun node _ => extensionText_eq _ _ _ _ _)

theorem readBlock_nodes (hr : r.Safe) (h : r.Covers nodes) (hscope : scope.Safe)
    (hclaimed : Claimed r scope nodes) (hne : nodes ≠ []) :
    readBlock ("\n\n".intercalate (nodes.map (nodeText r scope))) =
      (nodes.flatMap (extensionsAtNode r (mapperName r scope))).map some := by
  have hin : ∀ p ∈ nodes.flatMap (paragraphsOf r scope),
      ∃ node ∈ nodes, p ∈ paragraphsOf r scope node := fun p hp => List.mem_flatMap.mp hp
  rw [intercalate_nodeText, readBlock_paragraphs]
  · rw [List.map_flatMap, List.map_flatMap]
    exact List.flatMap_congr fun node hnode =>
      readExtension_paragraphsOf hr h hscope hclaimed hnode
  · obtain ⟨node, hnode⟩ := List.exists_mem_of_ne_nil nodes hne
    exact List.ne_nil_of_mem (List.mem_flatMap.mpr ⟨node, hnode, List.mem_cons_self⟩)
  · intro p hp
    obtain ⟨node, -, hp⟩ := hin p hp
    rcases List.mem_pair.mp hp with rfl | rfl <;> exact blank_not_mem_extensionLines
  · intro p hp
    obtain ⟨node, -, hp⟩ := hin p hp
    rcases List.mem_pair.mp hp with rfl | rfl <;> exact List.cons_ne_nil _ _
  · intro p hp line hline hmem
    obtain ⟨node, hnode, hp⟩ := hin p hp
    exact (isClear_paragraphsOf hr h hscope hclaimed hnode p hp line hline _ hmem).1 rfl

/-- Response and entity live in files with different names. -/
theorem responseClass_ne_entityClass (r : Registry) (path other : Path) :
    responseClass r path ≠ entityClass r other := by
  intro heq
  have hlists := congrArg String.toList heq
  simp [responseClass, entityClass, responseAlias, entityAlias] at hlists

theorem nodup_targets (hr : r.Safe) (h : r.Covers nodes) (hpaths : (nodes.map Prod.fst).Nodup)
    (mapperOf : Path → String) :
    ((nodes.flatMap (extensionsAtNode r mapperOf)).map Extension.target).Nodup := by
  have hclass : ∀ a ∈ nodes, ∀ b ∈ nodes, a.1 ≠ b.1 →
      responseClass r a.1 ≠ responseClass r b.1 ∧ entityClass r a.1 ≠ entityClass r b.1 := by
    intro a ha b hb hne
    refine ⟨fun heq => ?_, fun heq => ?_⟩
    · exact Registry.className_ne hr h .response ha hb hne (String.append_right_inj _ |>.mp heq)
    · exact Registry.className_ne hr h .entity ha hb hne (String.append_right_inj _ |>.mp heq)
  have htargets : ∀ node : Path × Fields, (extensionsAtNode r mapperOf node).map Extension.target =
      [responseClass r node.1, entityClass r node.1] := fun _ => rfl
  rw [List.map_flatMap, List.nodup_flatMap]
  refine ⟨fun node _ => ?_, (List.pairwise_map.mp hpaths).imp_of_mem fun {a b} ha hb hne => ?_⟩
  · rw [htargets]
    simpa using responseClass_ne_entityClass r node.1 node.1
  · obtain ⟨hresponse, hentity⟩ := hclass a ha b hb hne
    rw [Function.onFun_apply, htargets, htargets]
    simp [List.disjoint_left, hresponse, hentity, responseClass_ne_entityClass,
      (responseClass_ne_entityClass r _ _).symm]

/-! ### What the block tells -/

theorem getLast?_nodeText (r : Registry) (scope : Scope) (node : Path × Fields) :
    (nodeText r scope node).toList.getLast? = some '\x7d' := by
  rw [nodeText, extensionText, String.intercalate_append_of_ne_nil (by simp) (by simp)]
  simp

theorem getLast?_text (r : Registry) (scope : Scope) (nodes : List (Path × Fields)) :
    ∀ c ∈ ("\n\n".intercalate (nodes.map (nodeText r scope))).toList.getLast?, c ≠ '\n' := by
  rcases List.eq_nil_or_concat nodes with rfl | ⟨nodes, node, rfl⟩
  · simp
  · rw [List.concat_eq_append, List.map_append, List.map_singleton]
    rcases List.eq_nil_or_concat nodes with rfl | ⟨_, _, rfl⟩
    · simp [getLast?_nodeText]
    · rw [String.intercalate_append_of_ne_nil (by simp) (by simp)]
      simp [List.getLast?_cons, getLast?_nodeText]

/-- The extensions of the objects tell their mapper names. -/
theorem mapperName_eq_of_flatMap_eq {mapperOf mapperOf' : Path → String}
    (h : nodes.flatMap (extensionsAtNode r mapperOf) = nodes.flatMap (extensionsAtNode r mapperOf')) :
    ∀ node ∈ nodes, mapperOf node.1 = mapperOf' node.1 := by
  induction nodes with
  | nil => exact List.forall_mem_nil _
  | cons node nodes ih =>
      rw [List.flatMap_cons, List.flatMap_cons] at h
      obtain ⟨hnode, hrest⟩ := List.append_inj h rfl
      refine List.forall_mem_cons.mpr ⟨?_, ih hrest⟩
      have hname := congrArg Extension.name (List.cons.inj hnode).1
      exact (String.append_left_inj _).mp hname

theorem mapperName_eq_of_text_eq (hr : r.Safe) (h : r.Covers nodes) (hscope : scope.Safe)
    (hscope' : scope'.Safe) (hclaimed : Claimed r scope nodes) (hclaimed' : Claimed r scope' nodes)
    (heq : "\n\n".intercalate (nodes.map (nodeText r scope)) =
      "\n\n".intercalate (nodes.map (nodeText r scope'))) :
    ∀ node ∈ nodes, mapperName r scope node.1 = mapperName r scope' node.1 := by
  rcases eq_or_ne nodes [] with rfl | hne
  · exact List.forall_mem_nil _
  · have hread := congrArg readBlock heq
    rw [readBlock_nodes hr h hscope hclaimed hne, readBlock_nodes hr h hscope' hclaimed' hne] at hread
    exact mapperName_eq_of_flatMap_eq (List.map_injective_iff.mpr (fun _ _ => Option.some.inj) hread)

end DartScaffold.Mapper
