import DartScaffold.Proofs.Aggregate.Merge
import DartScaffold.Proofs.Dart.Reference
import DartScaffold.Proofs.Mapper.Block

/-!
A mapper's fragment cannot be taken for anything else. Its lines have no slash, so none of them is a
marker, and its imports are directives in their normal form, which lead to the two model files.
-/

namespace DartScaffold

open Aggregate (BlockKey IsBody)
open ClassName (Registry Scope)
open Dart (IsPath IsPlain importLine)

namespace Mapper

variable {r : Registry} {scope : Scope} {nodes : List (Path × Fields)}

theorem isCodeLine_of_mem_block (hr : r.Safe) (h : r.Covers nodes) (hscope : scope.Safe)
    (hclaimed : Claimed r scope nodes) :
    ∀ line ∈ [""].intercalate (nodes.flatMap (paragraphsOf r scope)), Dart.IsCodeLine line := by
  intro line hline
  rcases Text.mem_of_mem_intercalate hline with hblank | ⟨p, hp, hline⟩
  · obtain rfl := List.mem_singleton.mp hblank
    exact Dart.IsClear.isCodeLine (by decide)
  · obtain ⟨node, hnode, hp⟩ := List.mem_flatMap.mp hp
    exact (isClear_paragraphsOf hr h hscope hclaimed hnode p hp line hline).isCodeLine

theorem block_eq (r : Registry) (scope : Scope) (nodes : List (Path × Fields)) :
    "\n\n".intercalate (nodes.map (nodeText r scope)) =
      Text.joinLines ([""].intercalate (nodes.flatMap (paragraphsOf r scope))) := by
  rw [intercalate_nodeText, Text.joinLines_paragraphs]
  intro p hp
  obtain ⟨node, -, hp⟩ := List.mem_flatMap.mp hp
  rcases List.mem_pair.mp hp with rfl | rfl <;> exact List.cons_ne_nil _ _

theorem isBody_block (hr : r.Safe) (h : r.Covers nodes) (hscope : scope.Safe)
    (hclaimed : Claimed r scope nodes) (hne : nodes ≠ []) (key : BlockKey) :
    IsBody key (Text.splitLines ("\n\n".intercalate (nodes.map (nodeText r scope)))) := by
  rw [block_eq]
  refine Dart.isBody_joinLines (isCodeLine_of_mem_block hr h hscope hclaimed) ?_ key
  refine Text.intercalate_ne_nil ?_ fun p hp => ?_
  · obtain ⟨node, hnode⟩ := List.exists_mem_of_ne_nil nodes hne
    exact List.ne_nil_of_mem (List.mem_flatMap.mpr ⟨node, hnode, List.mem_cons_self⟩)
  · obtain ⟨node, -, hp⟩ := List.mem_flatMap.mp hp
    rcases List.mem_pair.mp hp with rfl | rfl <;> exact List.cons_ne_nil _ _

theorem imports_eq (r : Registry) : imports r =
    [importLine ("data/models/response/" ++ fileStem r ++ "_response.dart")
      (" as " ++ responseAlias r),
    importLine ("domain/entities/" ++ fileStem r ++ "_entity.dart") (" as " ++ entityAlias r)] := by
  simp [imports, importLine, toString, ← String.toList_inj]

theorem isImportLine_imports (r : Registry) :
    ∀ line ∈ imports r, Aggregate.isImportLine (Aggregate.normalizeImport line) = true := by
  have hstem : IsPlain (fileStem r) := Dart.isPlain_snakeCase r.api
  have hone : ∀ directory ending kind : String, IsPath directory → directory ≠ "" →
      IsPath ending → IsPlain kind → kind ≠ "" → Aggregate.isImportLine (Aggregate.normalizeImport
        (importLine (directory ++ fileStem r ++ ending) (" as " ++ (fileStem r ++ kind)))) = true := by
    intro directory ending kind hdirectory hne hending hkind hkindne
    refine Dart.isImportLine_normalizeImport_importLine ((hdirectory.append hstem.isPath).append hending)
      (fun heq => ?_) (.name (hstem.append hkind) fun heq => ?_)
    · exact hne (String.append_eq_empty_iff.mp (String.append_eq_empty_iff.mp heq).1).1
    · exact hkindne (String.append_eq_empty_iff.mp heq).2
  rw [imports_eq]
  refine List.forall_mem_cons.mpr ⟨?_, List.forall_mem_singleton.mpr ?_⟩
  · exact hone "data/models/response/" "_response.dart" "_response" (by decide) (by decide)
      (by decide) (by decide) (by decide)
  · exact hone "domain/entities/" "_entity.dart" "_entity" (by decide) (by decide) (by decide)
      (by decide) (by decide)

theorem leadTo_imports (r : Registry) :
    Dart.LeadTo fileName (imports r ++ Text.splitLines skeleton)
      ["data/models/response/" ++ fileStem r ++ "_response.dart",
        "domain/entities/" ++ fileStem r ++ "_entity.dart"] := by
  have hstem : IsPlain (fileStem r) := Dart.isPlain_snakeCase r.api
  have hreferences : ∀ directory ending kind : String,
      IsPath directory ∧ Dart.isRelative directory = true → IsPlain ending ∧ ending ≠ "" →
      IsPlain kind ∧ kind ≠ "" → Dart.references [importLine (directory ++ fileStem r ++ ending)
        (" as " ++ (fileStem r ++ kind))] = [directory ++ fileStem r ++ ending] := by
    intro directory ending kind hdirectory hending hkind
    have hrelative : Dart.isRelative (directory ++ fileStem r ++ ending) = true := by
      simp [Dart.isRelative_append, hdirectory.2, hstem.isRelative, hending.1.isRelative]
    exact Dart.references_importLine ((hdirectory.1.append hstem.isPath).append hending.1.isPath)
      hrelative (fun heq => hending.2 (String.append_eq_empty_iff.mp heq).2)
      (.name (hstem.append hkind.1) fun heq => hkind.2 (String.append_eq_empty_iff.mp heq).2)
  have hresolve : ∀ directory ending : String, Dart.IsDirectory directory →
      Dart.IsFileName ending →
      Dart.walk? [] (Disk.Location.ofString directory).parts =
        some (Disk.Location.ofString directory).parts →
      Dart.resolve? fileName (directory ++ fileStem r ++ ending) =
        some (Disk.Location.ofString (directory ++ fileStem r ++ ending)).parts := by
    intro directory ending hdirectory hending hwalk
    have hfile : fileName = "" ++ "mapper" ++ ".dart" := by decide
    have hempty : (Disk.Location.ofString "").parts = [] := by decide
    rw [hfile]
    exact Dart.resolve?_named (by decide) hstem ⟨by decide, hending⟩
      ⟨by decide, hdirectory, hdirectory⟩ (by rwa [hempty])
  have hskeleton : Dart.references (Text.splitLines skeleton) = [] := by decide +kernel
  rw [Dart.LeadTo, Dart.references_append, hskeleton, List.append_nil, imports_eq,
    Dart.references_cons, responseAlias, entityAlias,
    hreferences _ _ "_response" (by decide) (by decide) (by decide),
    hreferences _ _ "_entity" (by decide) (by decide) (by decide)]
  simp [hresolve "data/models/response/" "_response.dart" (by decide) (by decide) (by decide),
    hresolve "domain/entities/" "_entity.dart" (by decide) (by decide) (by decide)]

/-- The registry that names the objects of a sample. -/
def registryOf (api : String) (fields : Fields) : Registry :=
  Registry.ensureNodes { api } (Shape.object fields).nodes

/-- The mapper names of the page once those of a sample are claimed. -/
def claimsOf (api : String) (fields : Fields) (scope : Scope) : Scope :=
  (extensionTexts (registryOf api fields) scope (Shape.object fields).nodes).2

/-- The text of a mapper's block, by the names that are claimed. -/
def blockText (api : String) (fields : Fields) (claims : Scope) : String :=
  "\n\n".intercalate
    ((Shape.object fields).nodes.map (nodeText (registryOf api fields) claims))

section Emit

variable {api : String} {fields : Fields}

theorem covers_registryOf : (registryOf api fields).Covers (Shape.object fields).nodes :=
  Registry.covers_ensureNodes _ _

theorem safe_registryOf : (registryOf api fields).Safe :=
  Registry.safe_ensureNodes_object api ClassName.reserved fields

theorem api_registryOf : (registryOf api fields).api = api :=
  (Registry.extends_ensureNodes _ _).api

theorem claimed_claimsOf (scope : Scope) :
    Claimed (registryOf api fields) (claimsOf api fields scope) (Shape.object fields).nodes :=
  (extensionTexts_eq covers_registryOf scope).2.1

theorem extends_claimsOf (scope : Scope) : scope.Extends (claimsOf api fields scope) :=
  (extensionTexts_eq covers_registryOf scope).1

theorem safe_claimsOf (hscope : scope.Safe) : (claimsOf api fields scope).Safe :=
  safe_extensionTexts safe_registryOf covers_registryOf hscope

theorem blocks_emit (scope : Scope) : (emit { api } scope (.object fields)).1.blocks =
    [(sectionName, blockText api fields (claimsOf api fields scope))] := by
  have htexts := (extensionTexts_eq (@covers_registryOf api fields) scope).2.2
  rw [emit, blockText, claimsOf, ← htexts]
  rfl

/-- The block of a sample tells the mapper names of its objects. -/
theorem mapperName_eq_of_makeBlock_eq (hscope : scope.Safe) {scope' : Scope} (hscope' : scope'.Safe)
    {key : BlockKey} {indent indent' : String}
    (heq : Aggregate.makeBlock key (blockText api fields (claimsOf api fields scope)) indent =
      Aggregate.makeBlock key (blockText api fields (claimsOf api fields scope')) indent') :
    ∀ node ∈ (Shape.object fields).nodes,
      mapperName (registryOf api fields) (claimsOf api fields scope) node.1 =
        mapperName (registryOf api fields) (claimsOf api fields scope') node.1 :=
  mapperName_eq_of_text_eq safe_registryOf covers_registryOf (safe_claimsOf hscope)
    (safe_claimsOf hscope') (claimed_claimsOf scope) (claimed_claimsOf scope')
    (Aggregate.body_eq_of_makeBlock_eq (getLast?_text _ _ _) (getLast?_text _ _ _) heq)

/-- The fragment of an API whose name can stand in a marker. -/
theorem wellFormed_emit (hapi : Aggregate.IsApiId api) (hscope : scope.Safe) :
    (emit { api } scope (.object fields)).1.WellFormed := by
  have hclaims : (claimsOf api fields scope).Safe := safe_claimsOf hscope
  have hclaimed := @claimed_claimsOf api fields scope
  have hne : (Shape.object fields).nodes ≠ [] := by simp [Shape.nodes, Shape.nodesAt]
  have hpart : Aggregate.IsPartName sectionName := by decide
  have hskeleton : '\r' ∉ skeleton.toList := by decide
  have hname : (emit { api } scope (.object fields)).1.api = api :=
    @api_registryOf api fields
  refine ⟨?_, ?_, ?_, ?_, ?_, ?_, hskeleton⟩
  · rwa [hname]
  · rw [blocks_emit]
    exact List.forall_mem_singleton.mpr hpart
  · rw [blocks_emit]
    exact List.nodup_singleton _
  · rw [blocks_emit]
    exact List.forall_mem_singleton.mpr
      (isBody_block safe_registryOf covers_registryOf hclaims hclaimed hne _)
  · exact fun line hline => .inr (isImportLine_imports _ line hline)
  · rw [blocks_emit, blockText, block_eq]
    exact List.forall_mem_singleton.mpr (Dart.carriage_not_mem_joinLines
      (isCodeLine_of_mem_block safe_registryOf covers_registryOf hclaims hclaimed))

end Emit

end Mapper

end DartScaffold
