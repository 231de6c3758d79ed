import DartScaffold.Proofs.Json.Keys

/-!
The objects of a shape by their paths. A path is followed field by field, with all list layers taken off
before each step and after the last. The objects that are enumerated are exactly those that paths lead to,
each once, and after all the objects around it.
-/

namespace DartScaffold.Shape

/-- The fields of an object. -/
def fields? : Shape → Option Fields
  | object fields => some fields
  | _ => none

/-- The object that a path leads to. -/
def objectAt? (shape : Shape) : Path → Option Fields
  | [] => shape.unwrapped.fields?
  | name :: path => do
    let fields ← shape.unwrapped.fields?
    let child ← field? fields name
    child.objectAt? path

/-! ### Following a path -/

@[simp] theorem objectAt?_scalar (kind : Scalar) (path : Path) :
    (scalar kind).objectAt? path = none := by
  cases path with
  | nil => rfl
  | cons name path => rfl

@[simp] theorem objectAt?_list (element : Shape) (path : Path) :
    (list element).objectAt? path = element.objectAt? path := by
  cases path with
  | nil => rfl
  | cons name path => rfl

@[simp] theorem objectAt?_object_nil (fields : Fields) :
    (object fields).objectAt? [] = some fields :=
  rfl

theorem objectAt?_object_cons (fields : Fields) (name : String) (path : Path) :
    (object fields).objectAt? (name :: path) =
      (field? fields name).bind fun child => child.objectAt? path :=
  rfl

/-- A path leads past objects only. -/
theorem objectAt?_of_append {shape : Shape} {path more : Path} {fields : Fields}
    (h : shape.objectAt? (path ++ more) = some fields) :
    ∃ around, shape.objectAt? path = some around := by
  induction path generalizing shape with
  | nil =>
      cases more with
      | nil => exact ⟨fields, h⟩
      | cons name more =>
          obtain ⟨around, hfields, -⟩ := Option.bind_eq_some_iff.mp h
          exact ⟨around, hfields⟩
  | cons name path ih =>
      obtain ⟨own, hown, h⟩ := Option.bind_eq_some_iff.mp h
      obtain ⟨child, hchild, h⟩ := Option.bind_eq_some_iff.mp h
      obtain ⟨around, hpath⟩ := ih h
      exact ⟨around, by simp [objectAt?, hown, hchild, hpath]⟩

/-- Under distinct keys each field is found. -/
theorem field?_eq_some_iff {fields : Fields} (hkeys : (fields.map Prod.fst).Nodup) {name : String}
    {child : Shape} : field? fields name = some child ↔ (name, child) ∈ fields := by
  induction fields with
  | nil => simp [field?]
  | cons field rest ih =>
      obtain ⟨key, shape⟩ := field
      rw [List.map_cons, List.nodup_cons] at hkeys
      rw [field?, List.mem_cons, Prod.mk.injEq]
      split
      · rename_i hkey
        subst hkey
        have hlater : (key, child) ∉ rest := fun hmem => hkeys.1 (List.mem_map.mpr ⟨_, hmem, rfl⟩)
        simp [hlater, eq_comm]
      · rename_i hkey
        simp [ih hkeys.2, Ne.symm hkey]

/-! ### What is enumerated -/

mutual

theorem mem_nodesAt_iff (path : Path) (shape : Shape) (h : shape.KeysDistinct)
    {node : Path × Fields} :
    node ∈ shape.nodesAt path ↔
      ∃ inner, node.1 = path ++ inner ∧ shape.objectAt? inner = some node.2 := by
  match shape with
  | .scalar kind => simp [nodesAt]
  | .list element =>
      rw [nodesAt, mem_nodesAt_iff path element h]
      simp
  | .object fields =>
      rw [KeysDistinct] at h
      rw [nodesAt, List.mem_cons, mem_fieldNodes_iff path fields h.2]
      constructor
      · rintro (rfl | ⟨name, child, inner, hfield, hpath, hinner⟩)
        · exact ⟨[], by simp⟩
        · refine ⟨name :: inner, hpath, ?_⟩
          rw [objectAt?_object_cons, (field?_eq_some_iff h.1).mpr hfield]
          exact hinner
      · rintro ⟨inner, hpath, hinner⟩
        cases inner with
        | nil =>
            refine .inl (Prod.ext (by simpa using hpath) ?_)
            simpa using hinner.symm
        | cons name inner =>
            rw [objectAt?_object_cons] at hinner
            obtain ⟨child, hchild, hinner⟩ := Option.bind_eq_some_iff.mp hinner
            exact .inr ⟨name, child, inner, (field?_eq_some_iff h.1).mp hchild, hpath, hinner⟩

theorem mem_fieldNodes_iff (path : Path) (fields : List (String × Shape))
    (h : FieldsKeysDistinct fields) {node : Path × Fields} :
    node ∈ fieldNodes path fields ↔
      ∃ name child inner, (name, child) ∈ fields ∧ node.1 = path ++ name :: inner ∧
        child.objectAt? inner = some node.2 := by
  match fields with
  | [] => simp [fieldNodes]
  | (key, shape) :: rest =>
      rw [FieldsKeysDistinct] at h
      rw [fieldNodes, List.mem_append, mem_nodesAt_iff (path ++ [key]) shape h.1,
        mem_fieldNodes_iff path rest h.2]
      constructor
      · rintro (⟨inner, hpath, hinner⟩ | ⟨name, child, inner, hfield, hrest⟩)
        · exact ⟨key, shape, inner, List.mem_cons_self, by simpa using hpath, hinner⟩
        · exact ⟨name, child, inner, List.mem_cons_of_mem _ hfield, hrest⟩
      · rintro ⟨name, child, inner, hfield, hpath, hinner⟩
        rcases List.mem_cons.mp hfield with heq | hfield
        · obtain ⟨rfl, rfl⟩ := Prod.mk.inj heq
          exact .inl ⟨inner, by simpa using hpath, hinner⟩
        · exact .inr ⟨name, child, inner, hfield, hpath, hinner⟩

end

theorem mem_nodes_iff {shape : Shape} (h : shape.KeysDistinct) {path : Path} {fields : Fields} :
    (path, fields) ∈ shape.nodes ↔ shape.objectAt? path = some fields := by
  rw [nodes, mem_nodesAt_iff [] shape h]
  simp

/-- The objects around an object come before it. -/
theorem mem_before_of_prefix {shape : Shape} (h : shape.KeysDistinct)
    {before after : List (Path × Fields)} {node : Path × Fields}
    (hsplit : shape.nodes = before ++ node :: after) {path : Path} (hpath : path <+: node.1)
    (hne : path ≠ node.1) : path ∈ before.map Prod.fst := by
  have hnode : shape.objectAt? node.1 = some node.2 :=
    (mem_nodes_iff h).mp (hsplit ▸ List.mem_append_right _ List.mem_cons_self)
  obtain ⟨more, hmore⟩ := hpath
  obtain ⟨around, haround⟩ := objectAt?_of_append (hmore ▸ hnode)
  have hmem : (path, around) ∈ before ++ node :: after := hsplit ▸ (mem_nodes_iff h).mpr haround
  have horder := pairwise_nodesAt [] shape h
  rw [← nodes, hsplit, List.pairwise_append, List.pairwise_cons] at horder
  rcases List.mem_append.mp hmem with hbefore | hlater
  · exact List.mem_map_of_mem hbefore
  · rcases List.mem_cons.mp hlater with heq | hafter
    · exact absurd (congrArg Prod.fst heq) hne
    · exact absurd ⟨more, hmore⟩ (horder.2.1.1 _ hafter)

theorem countNodes_eq (shape : Shape) : shape.countNodes = shape.nodes.length := by
  simp [countNodes]

/-- The objects that are enumerated for a sample are those to which a path leads, each at its own path
and after all the objects around it. -/
theorem nodes_infer_iff (value : Json) (h : value.KeysDistinct) :
    (∀ path fields, (path, fields) ∈ (infer value).nodes ↔
        (infer value).objectAt? path = some fields) ∧
      ((infer value).nodes.map Prod.fst).Nodup ∧
      (∀ before node after, (infer value).nodes = before ++ node :: after →
        ∀ path, path <+: node.1 → path ≠ node.1 → path ∈ before.map Prod.fst) ∧
      (infer value).countNodes = (infer value).nodes.length := by
  have hshape := keysDistinct_infer value h
  refine ⟨fun path fields => mem_nodes_iff hshape, nodup_nodesAt [] _ hshape, ?_, countNodes_eq _⟩
  intro before node after hsplit path
  exact mem_before_of_prefix hshape hsplit

/-- Two objects called `owner`, one of them inside lists of lists of objects, and a key that comes twice. -/
def teamsText : String :=
  "\x7b\"teams\": [[\x7b\"id\": 1, \"owner\": \x7b\"tags\": []\x7d\x7d], null], " ++
    "\"owner\": [\x7b\x7d], \"page\": \x7b\x7d, \"page\": 2\x7d"

def teams : Json :=
  .obj [("teams", .arr [.arr [.obj [("id", .int 1), ("owner", .obj [("tags", .arr [])])]], .null]),
    ("owner", .arr [.obj []]), ("page", .int 2)]

theorem nodes_infer_iff_teams :
    Json.read? teamsText = some teams ∧ teams.KeysDistinct ∧
      (infer teams).nodes.map Prod.fst = [[], ["teams"], ["teams", "owner"], ["owner"]] ∧
      (["teams", "owner"], [("tags", .list (.scalar .dynamic))]) ∈ (infer teams).nodes ∧
      (∀ fields, (["page"], fields) ∉ (infer teams).nodes) ∧
      ((infer teams).nodes.map Prod.fst).Nodup ∧ (infer teams).countNodes = 4 := by
  have hread : Json.read? teamsText = some teams := by decide +kernel
  have hteams : teams.KeysDistinct := Json.keysDistinct_of_read? hread
  obtain ⟨hmem, hnodup, -, hcount⟩ := nodes_infer_iff teams hteams
  refine ⟨hread, hteams, by decide +kernel, (hmem _ _).mpr (by decide +kernel),
    fun fields hpage => ?_, hnodup, hcount.trans (by decide +kernel)⟩
  have hnone : (infer teams).objectAt? ["page"] = none := by decide +kernel
  exact Option.some_ne_none fields ((hmem _ _).mp hpage ▸ hnone)

end DartScaffold.Shape
