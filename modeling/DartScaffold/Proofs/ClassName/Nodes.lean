import DartScaffold.Proofs.ClassName.Registry
import DartScaffold.Proofs.Shape.Nodes

/-!
The class names of all objects of a shape. After they were allocated once, allocating them again
changes nothing, so whoever comes second finds the names that the first one made.
-/

namespace DartScaffold.ClassName.Registry

variable {r : Registry} {nodes : List (Path × Fields)}

/-- Every object has a stem. -/
def Covers (r : Registry) (nodes : List (Path × Fields)) : Prop :=
  ∀ node ∈ nodes, ∃ stem, r.stem? node.1 = some stem

theorem ensurePath_of_stem? {path : Path} {stem : Stem} (h : r.stem? path = some stem) :
    r.ensurePath path = r := by
  rw [ensurePath, ensure, h]

theorem extends_ensurePath (r : Registry) (path : Path) : r.Extends (r.ensurePath path) :=
  extends_ensure r path _ _

theorem extends_ensureNodes (r : Registry) (nodes : List (Path × Fields)) :
    r.Extends (r.ensureNodes nodes) :=
  List.foldlRecOn nodes _ (.refl r) fun _ hsofar _ _ => hsofar.trans (extends_ensurePath _ _)

theorem covers_ensureNodes (r : Registry) (nodes : List (Path × Fields)) :
    (r.ensureNodes nodes).Covers nodes := by
  induction nodes generalizing r with
  | nil => simp [Covers]
  | cons node nodes ih =>
      refine List.forall_mem_cons.mpr ⟨?_, ih (r.ensurePath node.1)⟩
      obtain ⟨stem, hstem⟩ := stem?_ensure r node.1 (node.1.getLast?.getD r.api) node.1.isEmpty
      exact ⟨stem, (extends_ensureNodes (r.ensurePath node.1) nodes).stem? hstem⟩

/-- Paths that are allocated already are left as they are. -/
theorem foldl_ensurePath {paths : List Path} (h : ∀ path ∈ paths, ∃ stem, r.stem? path = some stem) :
    paths.foldl ensurePath r = r := by
  induction paths with
  | nil => rfl
  | cons path paths ih =>
      obtain ⟨⟨stem, hstem⟩, hrest⟩ := List.forall_mem_cons.mp h
      rw [List.foldl_cons, ensurePath_of_stem? hstem]
      exact ih hrest

theorem ensureNodes_of_covers (h : r.Covers nodes) : r.ensureNodes nodes = r := by
  rw [ensureNodes, ← List.foldl_map]
  exact foldl_ensurePath (List.forall_mem_map.mpr h)

/-- The second allocation finds everything in place. -/
@[simp] theorem ensureNodes_ensureNodes (r : Registry) (nodes : List (Path × Fields)) :
    (r.ensureNodes nodes).ensureNodes nodes = r.ensureNodes nodes :=
  ensureNodes_of_covers (covers_ensureNodes r nodes)

/-- Distinct paths are allocated one by one, in order. -/
theorem map_fst_stems_ensureNodes
    (h : (r.stems.map Prod.fst ++ nodes.map Prod.fst).Nodup) :
    (r.ensureNodes nodes).stems.map Prod.fst = r.stems.map Prod.fst ++ nodes.map Prod.fst := by
  induction nodes generalizing r with
  | nil => exact (List.append_nil _).symm
  | cons node nodes ih =>
      have hnew : node.1 ∉ r.stems.map Prod.fst := fun hmem =>
        List.disjoint_of_nodup_append h hmem List.mem_cons_self
      have hfirst : (r.ensurePath node.1).stems.map Prod.fst = r.stems.map Prod.fst ++ [node.1] := by
        cases hstem : r.stem? node.1 with
        | some stem => exact absurd (List.mem_map_of_mem (mem_of_stem? hstem)) hnew
        | none => simp [ensurePath, ensure, hstem]
      rw [ensureNodes, List.foldl_cons, List.map_cons, List.append_cons, ← hfirst]
      refine ih ?_
      rw [hfirst, ← List.append_cons]
      exact h

theorem Safe.ensureNodes (h : r.Safe) (hnodes : ∀ node ∈ nodes, node.1 ≠ []) :
    (r.ensureNodes nodes).Safe := by
  induction nodes generalizing r with
  | nil => exact h
  | cons node nodes ih =>
      obtain ⟨hnode, hrest⟩ := List.forall_mem_cons.mp hnodes
      have hnested : node.1.isEmpty = false := by simpa using hnode
      have hfirst : (r.ensurePath node.1).Safe := by
        rw [ensurePath, hnested]
        exact h.ensure node.1 _
      exact ih hfirst hrest

section Object

variable (api : String) (reserved : List String) (fields : Fields)

/-- A sample as a whole is named after its API, whatever is inside it. -/
theorem ensureNodes_object :
    ({ api, reserved } : Registry).ensureNodes (Shape.object fields).nodes =
      ({ api, reserved, stems := [([], .root (Dart.classStem api))] } : Registry).ensureNodes
        (Shape.fieldNodes [] fields) := by
  rw [Shape.nodes, Shape.nodesAt]
  rfl

theorem safe_ensureNodes_object :
    (({ api, reserved } : Registry).ensureNodes (Shape.object fields).nodes).Safe := by
  have hroot := (safe_empty api reserved).ensure_root rfl api
  rw [ensureNodes_object]
  exact Safe.ensureNodes hroot fun node hnode => (Shape.prefix_of_mem_fieldNodes [] _ node hnode).2

theorem stem?_root_object :
    (({ api, reserved } : Registry).ensureNodes (Shape.object fields).nodes).stem? [] =
      some (.root (Dart.classStem api)) := by
  rw [ensureNodes_object]
  exact (extends_ensureNodes _ _).stem? rfl

end Object

theorem className_of_stem? {path : Path} {stem : Stem} (h : r.stem? path = some stem)
    (kind : Artifact) : r.className kind path = r.render stem kind := by
  rw [className, h]

theorem isTypeName_className (h : r.Safe) {path : Path} {stem : Stem} (hstem : r.stem? path = some stem)
    (kind : Artifact) : Dart.IsTypeName (r.className kind path) := by
  rw [className_of_stem? hstem]
  exact Stem.isTypeName_render (Dart.isTypeName_classStem r.api)
    (h.legal path stem (mem_of_stem? hstem)) kind

/-- Objects at different paths have different classes. -/
theorem className_ne (h : r.Safe) (hcovers : r.Covers nodes) (kind : Artifact)
    {a b : Path × Fields} (ha : a ∈ nodes) (hb : b ∈ nodes) (hne : a.1 ≠ b.1) :
    r.className kind a.1 ≠ r.className kind b.1 := by
  obtain ⟨stem, hstem⟩ := hcovers a ha
  obtain ⟨stem', hstem'⟩ := hcovers b hb
  rw [className_of_stem? hstem, className_of_stem? hstem']
  exact h.render_ne hstem hstem' hne kind

theorem nodup_classNames (h : r.Safe) (hcovers : r.Covers nodes)
    (hpaths : (nodes.map Prod.fst).Nodup) (kind : Artifact) :
    (nodes.map fun node => r.className kind node.1).Nodup := by
  refine List.Nodup.map_on (fun a ha b hb heq => ?_) (List.Nodup.of_map Prod.fst hpaths)
  by_contra hne
  refine className_ne h hcovers kind ha hb (fun hpath => hne ?_) heq
  exact List.inj_on_of_nodup_map hpaths ha hb hpath

end DartScaffold.ClassName.Registry
