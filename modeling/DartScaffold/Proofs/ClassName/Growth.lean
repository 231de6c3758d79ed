import DartScaffold.Model.File
import DartScaffold.Proofs.ClassName.Nodes
import DartScaffold.Proofs.ClassName.Session
import DartScaffold.Shape.Infer

/-!
The class names of a sample that grows. Names are given to the objects of a shape one after the other,
and all that is looked at is the path of an object, so what comes later has no part in the names before
it. A sample that grows at its end only gets new paths after the old ones, and its classes keep their
names.
-/

namespace DartScaffold.ClassName

namespace Session

/-- Allocates one object of a shape. -/
def allocatePath (σ : Session) (kind : Artifact) (path : Path) : List Answer × Session :=
  σ.allocate path (path.getLast?.getD σ.registry.api) kind path.isEmpty

theorem allocateTree_cons (σ : Session) (kind : Artifact) (node : Path × Fields)
    (rest : List (Path × Fields)) :
    σ.allocateTree kind (node :: rest) =
      ((σ.allocatePath kind node.1).1 ++ ((σ.allocatePath kind node.1).2.allocateTree kind rest).1,
        ((σ.allocatePath kind node.1).2.allocateTree kind rest).2) :=
  rfl

/-! ### Allocation in order -/

theorem answers_append (σ : Session) (kind : Artifact) (nodes more : List (Path × Fields)) :
    (σ.allocateTree kind (nodes ++ more)).1 =
      (σ.allocateTree kind nodes).1 ++ ((σ.allocateTree kind nodes).2.allocateTree kind more).1 := by
  induction nodes generalizing σ with
  | nil => rfl
  | cons node nodes ih =>
      rw [List.cons_append, allocateTree_cons, allocateTree_cons, ih]
      exact (List.append_assoc _ _ _).symm

/-- Nothing but the paths is looked at. -/
theorem allocateTree_congr (σ : Session) (kind : Artifact) {nodes others : List (Path × Fields)}
    (h : nodes.map Prod.fst = others.map Prod.fst) :
    σ.allocateTree kind nodes = σ.allocateTree kind others := by
  induction nodes generalizing σ others with
  | nil =>
      obtain rfl := List.map_eq_nil_iff.mp h.symm
      rfl
  | cons node nodes ih =>
      cases others with
      | nil => simp at h
      | cons other others =>
          obtain ⟨hpath, hrest⟩ := List.cons.inj h
          rw [allocateTree_cons, allocateTree_cons, hpath, ih _ hrest]

theorem answers_grow (σ : Session) (kind : Artifact) {nodes grown : List (Path × Fields)}
    (h : nodes.map Prod.fst <+: grown.map Prod.fst) :
    (σ.allocateTree kind nodes).1 <+: (σ.allocateTree kind grown).1 := by
  obtain ⟨more, hmore⟩ := h
  obtain ⟨old, new, rfl, hold, -⟩ := List.map_eq_append_iff.mp hmore.symm
  rw [allocateTree_congr σ kind hold.symm, answers_append]
  exact List.prefix_append _ _

/-! ### The names of the classes that are written -/

/-- The answers are the names that the registry has for the classes once all objects are allocated. -/
theorem name_allocateTree (σ : Session) {kind : Artifact} (hkind : kind ≠ .mapper)
    (nodes : List (Path × Fields)) :
    (σ.allocateTree kind nodes).1.map Answer.name =
      nodes.map fun node => (σ.registry.ensureNodes nodes).className kind node.1 := by
  induction nodes generalizing σ with
  | nil => rfl
  | cons node nodes ih =>
      obtain ⟨path, fields⟩ := node
      have hnext : (σ.allocatePath kind path).2.registry = σ.registry.ensurePath path := rfl
      obtain ⟨stem, hstem⟩ := Registry.stem?_ensure σ.registry path
        (path.getLast?.getD σ.registry.api) path.isEmpty
      have hfirst : (σ.allocatePath kind path).1.map Answer.name =
          [(σ.registry.ensurePath path).render stem kind] := by
        simp [allocatePath, allocate, Registry.allocate, Registry.lookup, hstem,
          publicName_of_ne_mapper _ _ _ _ hkind, Registry.ensurePath]
      -- the stem stays, whatever is allocated after it
      have hlater := Registry.extends_ensureNodes (σ.registry.ensurePath path) nodes
      rw [allocateTree_cons, List.map_append, hfirst, ih, hnext, List.map_cons]
      change [_] ++ nodes.map (fun node => (Registry.ensureNodes _ nodes).className kind node.1) =
        Registry.className (Registry.ensureNodes (σ.registry.ensurePath path) nodes) kind path :: _
      rw [Registry.className_of_stem? (hlater.stem? hstem), hlater.render]
      rfl

/-! ### Shapes with more objects -/

/-- The names of the objects of a shape, in their order, for an API that is alone on its page. -/
def treeNames (api : String) (reserved : List String) (kind : Artifact) (shape : Shape) :
    List String :=
  ((fresh api reserved [api]).allocateTree kind shape.nodes).1.map Answer.name

section Names

variable {api : String} {reserved : List String} {kind : Artifact} {shape grown : Shape}

theorem length_treeNames : (treeNames api reserved kind shape).length = shape.nodes.length := by
  have hpaths := path_allocateTree (fresh api reserved [api]) kind shape.nodes
  rw [treeNames, List.length_map, ← List.length_map Answer.path, hpaths, List.length_map]

theorem prefix_of_paths (h : shape.nodes.map Prod.fst <+: grown.nodes.map Prod.fst) :
    treeNames api reserved kind shape <+: treeNames api reserved kind grown :=
  (answers_grow _ kind h).map Answer.name

theorem treeNames_eq_className (hkind : kind ≠ .mapper) :
    treeNames api reserved kind shape = shape.nodes.map fun node =>
      (({ api, reserved } : Registry).ensureNodes shape.nodes).className kind node.1 :=
  name_allocateTree (fresh api reserved [api]) hkind shape.nodes

end Names

/-- There is one name for each object. The names are those of any shape with the same paths, and they
come first among the names of a shape whose paths begin with them. -/
theorem treeNames_of_paths (api : String) (reserved : List String) (kind : Artifact)
    (shape grown : Shape) :
    (treeNames api reserved kind shape).length = (shape.nodes.map Prod.fst).length ∧
      (shape.nodes.map Prod.fst = grown.nodes.map Prod.fst →
        treeNames api reserved kind shape = treeNames api reserved kind grown) ∧
      (shape.nodes.map Prod.fst <+: grown.nodes.map Prod.fst →
        treeNames api reserved kind shape <+: treeNames api reserved kind grown) := by
  refine ⟨by rw [length_treeNames, List.length_map], fun h => ?_, prefix_of_paths⟩
  rw [treeNames, treeNames, allocateTree_congr _ kind h]

/-- Two objects called `address`, and a list of plain values. -/
def contact : Shape :=
  .object [("user", .object [("address", .object [("city", .scalar .string)])]),
    ("address", .object []), ("tags", .list (.scalar .int))]

/-- The same objects with other fields and with lists around two of them, and more at the end. -/
def contactWith (more : Fields) : Shape :=
  .object ([("user", .list (.object [("id", .scalar .int), ("address", .object [])])),
    ("address", .list (.list (.object [("zip", .scalar .string)])))] ++ more)

theorem treeNames_of_paths_contact :
    let same := contactWith []
    let grown := contactWith [("owner", .object [("address", .object [])])]
    contact.nodes.map Prod.fst = same.nodes.map Prod.fst ∧
      contact.nodes.map Prod.fst <+: grown.nodes.map Prod.fst ∧
      treeNames "get_user" reserved .mapper contact =
        ["GetUser", "GetUserUser", "GetUserAddress", "GetUserGetUserAddress"] ∧
      treeNames "get_user" reserved .mapper same = treeNames "get_user" reserved .mapper contact ∧
      treeNames "get_user" reserved .mapper grown = treeNames "get_user" reserved .mapper contact ++
        ["GetUserOwner", "GetUserOwnerAddress"] ∧
      treeNames "get_user" reserved .mapper contact <+:
        treeNames "get_user" reserved .mapper grown := by
  intro same grown
  have hsame : contact.nodes.map Prod.fst = same.nodes.map Prod.fst := by decide +kernel
  have hgrown : contact.nodes.map Prod.fst <+: grown.nodes.map Prod.fst := by decide +kernel
  have hnames := (treeNames_of_paths "get_user" reserved .mapper contact same).2.1 hsame
  have hstart := (treeNames_of_paths "get_user" reserved .mapper contact grown).2.2 hgrown
  exact ⟨hsame, hgrown, by decide +kernel, hnames.symm, by decide +kernel, hstart⟩

/-- The classes of a model file stay in their places when the shape grows at its end. -/
theorem classNames_emit_prefix {shape grown : Shape} (policy : Model.Policy) (api : String)
    (reserved : List String) (options options' : Model.BodyOptions) (file file' : String)
    (h : shape.nodes.map Prod.fst <+: grown.nodes.map Prod.fst) :
    (Model.emit policy { api, reserved } options file shape).1.classNames <+:
      (Model.emit policy { api, reserved } options' file' grown).1.classNames := by
  have hkind : policy.kind.artifact ≠ .mapper := by cases policy.kind <;> decide
  have hnames := @prefix_of_paths api reserved policy.kind.artifact shape grown h
  rwa [treeNames_eq_className hkind, treeNames_eq_className hkind] at hnames

/-! ### Samples that grow -/

/-- `grown` is `sample` with more at its end: entries after the last one, also in the last value, or
other elements of a list after the first. -/
inductive Grows : Json → Json → Prop where
  | same (sample : Json) : Grows sample sample
  | entries (entries more : List (String × Json)) : Grows (.obj entries) (.obj (entries ++ more))
  | lastEntry {sample grown : Json} (entries : List (String × Json)) (key : String)
      (more : List (String × Json)) (h : Grows sample grown) :
      Grows (.obj (entries ++ [(key, sample)])) (.obj (entries ++ (key, grown) :: more))
  | items {sample grown : Json} (items others : List Json) (h : Grows sample grown) :
      Grows (.arr (sample :: items)) (.arr (grown :: others))

theorem fieldNodes_inferFields_append (path : Path) (entries more : List (String × Json)) :
    Shape.fieldNodes path (Shape.inferFields (entries ++ more)) =
      Shape.fieldNodes path (Shape.inferFields entries) ++
        Shape.fieldNodes path (Shape.inferFields more) := by
  induction entries with
  | nil => rfl
  | cons entry entries ih =>
      rw [List.cons_append, Shape.inferFields, Shape.inferFields, Shape.fieldNodes,
        Shape.fieldNodes, ih, List.append_assoc]

theorem Grows.paths {sample grown : Json} (h : Grows sample grown) (path : Path) :
    ((Shape.infer sample).nodesAt path).map Prod.fst <+:
      ((Shape.infer grown).nodesAt path).map Prod.fst := by
  induction h generalizing path with
  | same sample => exact List.prefix_refl _
  | entries entries more =>
      rw [Shape.infer, Shape.infer, Shape.nodesAt, Shape.nodesAt, fieldNodes_inferFields_append,
        ← List.cons_append, List.map_append]
      exact List.prefix_append _ _
  | lastEntry entries key more h ih =>
      rw [Shape.infer, Shape.infer, Shape.nodesAt, Shape.nodesAt, fieldNodes_inferFields_append,
        fieldNodes_inferFields_append]
      simp only [Shape.inferFields, Shape.fieldNodes, List.append_nil, List.map_cons,
        List.map_append, List.prefix_cons_inj, List.prefix_append_right_inj]
      -- the objects in the last value grow at their end, and the new entries come after them
      exact (ih (path ++ [key])).trans (List.prefix_append _ _)
  | items items others h ih =>
      rw [Shape.infer, Shape.infer, Shape.nodesAt, Shape.nodesAt]
      exact ih path

/-- A sample that grows at its end keeps the names of its classes. -/
theorem treeNames_of_grows {sample grown : Json} (h : Grows sample grown) (api : String)
    (reserved : List String) (kind : Artifact) :
    treeNames api reserved kind (Shape.infer sample) <+:
      treeNames api reserved kind (Shape.infer grown) :=
  prefix_of_paths (h.paths [])

end Session

end DartScaffold.ClassName
