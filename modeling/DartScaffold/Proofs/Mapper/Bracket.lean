import DartScaffold.Proofs.Mapper.Agreement
import DartScaffold.Proofs.Model.Bracket

/-!
The files made from one sample are balanced: its model files, which hold one class for each object, and
the block of its mapper, which holds two extensions for each. This is so whatever the keys are and in
whatever order the files are made.
-/

namespace DartScaffold

open ClassName (Registry Scope)
open Dart (Field Balanced Fills Turns Runs)

theorem ClassName.Registry.balanced_className {r : Registry} (h : r.Safe) (kind : Artifact)
    (path : Path) : Balanced (r.className kind path) := by
  cases hstem : r.stem? path with
  | some stem => exact (isTypeName_className h hstem kind).isPlain.balanced
  | none =>
      rw [className, hstem]
      rfl

/-! ### The mapper -/

namespace Mapper

section Extension

variable {target method : String} (htarget : Balanced target) (hmethod : Balanced method)
  {fields : List Field} (hfields : ∀ f ∈ fields, Balanced f.name)

include htarget hmethod hfields

theorem runs_conversionLines : Runs [] (conversionLines target method fields) [] := by
  have harguments : ∀ f ∈ fields, Balanced (argumentLine method f) := by
    intro f hf
    have hvalue := Model.balanced_fieldConverted hmethod (hfields f hf) f.shape
    exact (hfields f hf).inside₂ hvalue (by decide)
  rw [conversionLines_eq]
  split
  · have hline : Balanced ("  " ++ target ++ " " ++ method ++ "() => const " ++ target ++ "();") :=
      (((((((Fills.fixed _).code htarget).piece _).code hmethod).piece _).code htarget).piece
        _).balanced (by decide)
    exact Turns.runs hline
  · have hcall : Turns [] ("  " ++ target ++ " " ++ method ++ "() => " ++ target ++ "(") [')'] :=
      (((((((Fills.fixed _).code htarget).piece _).code hmethod).piece _).code htarget).piece
        _).turns (by decide)
    have hend : Turns [')'] "      );" [] := by decide
    exact hcall.runs.around (List.forall_mem_map.mpr harguments) hend.runs

theorem runs_extensionLines {name onTarget : String} (hname : Balanced name)
    (honTarget : Balanced onTarget) :
    Runs [] (extensionLines name onTarget target method fields) [] := by
  have hopen : Turns [] ("extension " ++ name ++ " on " ++ onTarget ++ " \x7b") ['\x7d'] :=
    hname.inside₂ honTarget (by decide)
  have hclose : Turns ['\x7d'] "\x7d" [] := by decide
  exact .cons hopen (((runs_conversionLines htarget hmethod hfields).frame ['\x7d']).append hclose.runs)

end Extension

variable {r : Registry} {scope : Scope} {nodes : List (Path × Fields)}

theorem balanced_nodeText (hr : r.Safe) (h : r.Covers nodes) (hscope : scope.Safe)
    (hclaimed : Claimed r scope nodes) {node : Path × Fields} (hnode : node ∈ nodes) :
    Balanced (nodeText r scope node) := by
  have hname := isPlain_mapperName hscope hclaimed hnode
  have hresponse := (isPlain_responseClass hr h hnode).balanced
  have hentity := (isPlain_entityClass hr h hnode).balanced
  have hfields : ∀ f ∈ Dart.fieldsAt node.1 [] node.2, Balanced f.name :=
    fun _ hf => (Dart.isPlain_of_mem_fieldsAt hf).balanced
  have honResponse : Balanced (mapperName r scope node.1 ++ "ResponseMapper") :=
    hname.balanced.append (by decide)
  have honEntity : Balanced (mapperName r scope node.1 ++ "EntityMapper") :=
    hname.balanced.append (by decide)
  rw [nodeText, extensionText_eq]
  refine Dart.balanced_intercalate (by decide) (List.forall_mem_cons.mpr
    ⟨?_, List.forall_mem_singleton.mpr ?_⟩)
  · exact (runs_extensionLines hentity (by decide) hfields honResponse hresponse).joinLines
  · exact (runs_extensionLines hresponse (by decide) hfields honEntity hentity).joinLines

theorem balanced_blocks_emit (api : String) (reserved : List String) (fields : Fields)
    (hscope : scope.Safe) :
    ∀ block ∈ (emit { api, reserved } scope (.object fields)).1.blocks, Balanced block.2 := by
  have hcovers := Registry.covers_ensureNodes { api, reserved } (Shape.object fields).nodes
  have hnamed := Registry.safe_ensureNodes_object api reserved fields
  obtain ⟨-, hclaimed, htexts⟩ := extensionTexts_eq hcovers scope
  simp only [emit, List.forall_mem_singleton]
  rw [htexts]
  exact Dart.balanced_intercalate (by decide) (List.forall_mem_map.mpr fun node hnode =>
    balanced_nodeText hnamed hcovers (safe_extensionTexts hnamed hcovers hscope) hclaimed hnode)

end Mapper

/-! ### Emissions -/

namespace Emission

/-- The code in what was made. -/
def Output.code : Output → List String
  | .model file => [file.content]
  | .mapper fragment => fragment.blocks.map Prod.snd

/-- The text that the settings bring into an emission is balanced. -/
def DateBalanced : Emission → Prop
  | .model policy _ _ => Balanced policy.dateCall
  | .mapper => True

/-- All code made from a sample is balanced: the model file of each kind, whatever its options are, and
the block of the mapper. -/
theorem balanced_emissions (api : String) (reserved : List String) {scope : Scope}
    (hscope : scope.Safe) (entries : List (String × Json)) {order : List Emission}
    (hdates : ∀ emission ∈ order, emission.DateBalanced) :
    ∀ output ∈ emitAll (Shape.infer (.obj entries)) { api, reserved } scope order,
      ∀ code ∈ output.code, Balanced code := by
  have hshape : Shape.infer (.obj entries) = .object (Shape.inferFields entries) := by
    simp only [Shape.infer]
  have hnamed := Registry.safe_ensureNodes_object api reserved (Shape.inferFields entries)
  rw [hshape, emitAll_eq]
  refine List.forall_mem_map.mpr fun emission hemission => ?_
  have hdate := hdates emission hemission
  cases emission with
  | model policy options relativePath =>
      exact List.forall_mem_singleton.mpr (Model.balanced_content_emit hdate
        (Registry.balanced_className hnamed policy.kind.artifact) options relativePath)
  | mapper => exact List.forall_mem_map.mpr (Mapper.balanced_blocks_emit api reserved _ hscope)

/-- A sample with a quote and brackets in its keys, and a list of lists of dates. -/
def meetingEntries : List (String × Json) :=
  [("it's (on", .arr [.arr [.str "2024-01-02T03:04:05Z"]]), ("rooms]", .arr [.obj [("\x7b", .null)]])]

theorem balanced_emissions_meeting :
    let scope := Scope.ofApis ["get_meeting"]
    let body := Emission.model { kind := .body, dateCall := ".format('(')" }
      { pathParams := ["id"], multipart := true } "body.dart"
    scope.Safe ∧ (∀ emission ∈ [.mapper, body], emission.DateBalanced) ∧
      ∀ output ∈ emitAll (Shape.infer (.obj meetingEntries)) { api := "get_meeting" } scope
        [.mapper, body], ∀ code ∈ output.code, Balanced code := by
  intro scope body
  have hscope : scope.Safe := ClassName.Scope.safe_ofApis ["get_meeting"]
  have hdate : Balanced ".format('(')" := by decide
  have hdates : ∀ emission ∈ [.mapper, body], emission.DateBalanced :=
    List.forall_mem_cons.mpr ⟨trivial, List.forall_mem_singleton.mpr hdate⟩
  exact ⟨hscope, hdates,
    balanced_emissions "get_meeting" ClassName.reserved hscope meetingEntries hdates⟩

end Emission

end DartScaffold
