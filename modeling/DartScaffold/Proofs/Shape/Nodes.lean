import DartScaffold.Shape.Infer
import Mathlib.Data.List.Nodup

/-!
The objects of a shape. Each stands at a path that starts with those of the objects around it, and
the path names it alone if no object has a key twice.
-/

namespace DartScaffold

mutual

/-- No object in the value has a key twice. -/
def Json.KeysDistinct : Json → Prop
  | .arr items => Json.ItemsKeysDistinct items
  | .obj entries => (entries.map Prod.fst).Nodup ∧ Json.EntriesKeysDistinct entries
  | _ => True

def Json.ItemsKeysDistinct : List Json → Prop
  | [] => True
  | item :: rest => item.KeysDistinct ∧ Json.ItemsKeysDistinct rest

def Json.EntriesKeysDistinct : List (String × Json) → Prop
  | [] => True
  | (_, value) :: rest => value.KeysDistinct ∧ Json.EntriesKeysDistinct rest

end

namespace Shape

mutual

def KeysDistinct : Shape → Prop
  | scalar _ => True
  | list element => element.KeysDistinct
  | object fields => (fields.map Prod.fst).Nodup ∧ FieldsKeysDistinct fields

def FieldsKeysDistinct : List (String × Shape) → Prop
  | [] => True
  | (_, shape) :: rest => shape.KeysDistinct ∧ FieldsKeysDistinct rest

end

theorem map_fst_inferFields (entries : List (String × Json)) :
    (inferFields entries).map Prod.fst = entries.map Prod.fst := by
  induction entries with
  | nil => rfl
  | cons entry rest ih => simp [inferFields, ih]

mutual

theorem keysDistinct_infer (value : Json) (h : value.KeysDistinct) : (infer value).KeysDistinct := by
  match value with
  | .null | .bool _ | .int _ | .float _ | .str _ | .arr [] => simp [infer, KeysDistinct]
  | .arr (item :: _) =>
      rw [Json.KeysDistinct, Json.ItemsKeysDistinct] at h
      exact keysDistinct_infer item h.1
  | .obj entries =>
      rw [Json.KeysDistinct] at h
      rw [infer, KeysDistinct, map_fst_inferFields]
      exact ⟨h.1, keysDistinct_inferFields entries h.2⟩

theorem keysDistinct_inferFields (entries : List (String × Json))
    (h : Json.EntriesKeysDistinct entries) : FieldsKeysDistinct (inferFields entries) := by
  match entries with
  | [] => trivial
  | (_, value) :: rest =>
      rw [Json.EntriesKeysDistinct] at h
      exact ⟨keysDistinct_infer value h.1, keysDistinct_inferFields rest h.2⟩

end

/-! ### Paths -/

mutual

theorem prefix_of_mem_nodesAt (path : Path) (shape : Shape) :
    ∀ node ∈ shape.nodesAt path, path <+: node.1 := by
  cases shape with
  | scalar kind => simp [nodesAt]
  | list element =>
      rw [nodesAt]
      exact prefix_of_mem_nodesAt path element
  | object fields =>
      rw [nodesAt]
      refine List.forall_mem_cons.mpr ⟨List.prefix_refl path, fun node hnode => ?_⟩
      exact (prefix_of_mem_fieldNodes path fields node hnode).1

theorem prefix_of_mem_fieldNodes (path : Path) (fields : List (String × Shape)) :
    ∀ node ∈ fieldNodes path fields, path <+: node.1 ∧ node.1 ≠ path := by
  cases fields with
  | nil => simp [fieldNodes]
  | cons field rest =>
      obtain ⟨name, shape⟩ := field
      rw [fieldNodes]
      refine List.forall_mem_append.mpr ⟨fun node hnode => ?_, prefix_of_mem_fieldNodes path rest⟩
      obtain ⟨more, hmore⟩ := prefix_of_mem_nodesAt (path ++ [name]) shape node hnode
      rw [← hmore]
      exact ⟨by simp, by simp⟩

end

/-- A nested object lies below one of the fields. -/
theorem field_of_mem_fieldNodes {path : Path} {fields : List (String × Shape)} {node : Path × Fields}
    (h : node ∈ fieldNodes path fields) : ∃ key ∈ fields.map Prod.fst, path ++ [key] <+: node.1 := by
  induction fields with
  | nil => simp [fieldNodes] at h
  | cons field rest ih =>
      obtain ⟨name, shape⟩ := field
      rw [fieldNodes] at h
      rcases List.mem_append.mp h with h | h
      · exact ⟨name, List.mem_cons_self, prefix_of_mem_nodesAt _ shape node h⟩
      · obtain ⟨key, hkey, hstart⟩ := ih h
        exact ⟨key, List.mem_cons_of_mem _ hkey, hstart⟩

theorem key_eq_of_isPrefix {path other : Path} {key key' : String} (h : path ++ [key] <+: other)
    (h' : path ++ [key'] <+: other) : key = key' := by
  have hsame := List.prefix_of_prefix_length_le h h' (by simp)
  have heq := hsame.eq_of_length (by simp)
  simpa using heq

mutual

/-- No path is the beginning of one that comes before it. -/
theorem pairwise_nodesAt (path : Path) (shape : Shape) (h : shape.KeysDistinct) :
    (shape.nodesAt path).Pairwise fun node later => ¬ later.1 <+: node.1 := by
  cases shape with
  | scalar kind => exact List.Pairwise.nil
  | list element => exact pairwise_nodesAt path element h
  | object fields =>
      rw [KeysDistinct] at h
      rw [nodesAt, List.pairwise_cons]
      refine ⟨fun later hlater hstart => ?_, pairwise_fieldNodes path fields h.1 h.2⟩
      obtain ⟨hbelow, hne⟩ := prefix_of_mem_fieldNodes path fields later hlater
      exact hne (hstart.eq_of_length_le hbelow.length_le)

theorem pairwise_fieldNodes (path : Path) (fields : List (String × Shape))
    (hkeys : (fields.map Prod.fst).Nodup) (h : FieldsKeysDistinct fields) :
    (fieldNodes path fields).Pairwise fun node later => ¬ later.1 <+: node.1 := by
  match fields with
  | [] => exact List.Pairwise.nil
  | (name, shape) :: rest =>
      rw [FieldsKeysDistinct] at h
      rw [List.map_cons, List.nodup_cons] at hkeys
      rw [fieldNodes, List.pairwise_append]
      refine ⟨pairwise_nodesAt _ shape h.1, pairwise_fieldNodes path rest hkeys.2 h.2, ?_⟩
      -- what lies below this field does not lie below a later one
      intro node hnode later hlater hstart
      have hhere := prefix_of_mem_nodesAt _ shape node hnode
      obtain ⟨key, hkey, hthere⟩ := field_of_mem_fieldNodes hlater
      exact hkeys.1 (key_eq_of_isPrefix hhere (hthere.trans hstart) ▸ hkey)

end

theorem nodup_nodesAt (path : Path) (shape : Shape) (h : shape.KeysDistinct) :
    ((shape.nodesAt path).map Prod.fst).Nodup := by
  rw [List.Nodup, List.pairwise_map]
  refine (pairwise_nodesAt path shape h).imp ?_
  intro node later hlater heq
  exact hlater (heq ▸ List.prefix_refl _)

/-! ### Fields that hold objects -/

theorem mem_nodesAt_of_unwrapped {path : Path} {shape : Shape} {fields : Fields}
    (h : shape.unwrapped = .object fields) : (path, fields) ∈ shape.nodesAt path := by
  induction shape using unwrapped.induct with
  | case1 element ih =>
      rw [nodesAt]
      exact ih h
  | case2 shape hlist =>
      cases shape with
      | scalar kind => simp [unwrapped] at h
      | list element => exact absurd rfl (hlist element)
      | object own =>
          rw [unwrapped, object.injEq] at h
          · simp [nodesAt, h]
          · simp

theorem mem_fieldNodes_of_field {path : Path} {fields inner : Fields} {key : String} {shape : Shape}
    (hfield : (key, shape) ∈ fields) (h : shape.unwrapped = .object inner) :
    (path ++ [key], inner) ∈ fieldNodes path fields := by
  induction fields with
  | nil => simp at hfield
  | cons field rest ih =>
      obtain ⟨name, first⟩ := field
      rw [fieldNodes]
      rcases List.mem_cons.mp hfield with heq | hfield
      · obtain ⟨rfl, rfl⟩ : key = name ∧ shape = first := by simpa using heq
        exact List.mem_append_left _ (mem_nodesAt_of_unwrapped h)
      · exact List.mem_append_right _ (ih hfield)

mutual

/-- The object that a field of an object holds is an object of the shape as well. -/
theorem child_mem_nodesAt (path : Path) (shape : Shape) {node : Path × Fields} {inner : Fields}
    {key : String} {held : Shape} (hnode : node ∈ shape.nodesAt path)
    (hfield : (key, held) ∈ node.2) (h : held.unwrapped = .object inner) :
    (node.1 ++ [key], inner) ∈ shape.nodesAt path := by
  cases shape with
  | scalar kind => simp [nodesAt] at hnode
  | list element => exact child_mem_nodesAt path element hnode hfield h
  | object fields =>
      rw [nodesAt] at hnode ⊢
      rcases List.mem_cons.mp hnode with rfl | hnode
      · exact List.mem_cons_of_mem _ (mem_fieldNodes_of_field hfield h)
      · exact List.mem_cons_of_mem _ (child_mem_fieldNodes path fields hnode hfield h)

theorem child_mem_fieldNodes (path : Path) (fields : List (String × Shape)) {node : Path × Fields}
    {inner : Fields} {key : String} {held : Shape} (hnode : node ∈ fieldNodes path fields)
    (hfield : (key, held) ∈ node.2) (h : held.unwrapped = .object inner) :
    (node.1 ++ [key], inner) ∈ fieldNodes path fields := by
  match fields with
  | [] => simp [fieldNodes] at hnode
  | (name, shape) :: rest =>
      rw [fieldNodes] at hnode ⊢
      rcases List.mem_append.mp hnode with hnode | hnode
      · exact List.mem_append_left _ (child_mem_nodesAt _ shape hnode hfield h)
      · exact List.mem_append_right _ (child_mem_fieldNodes path rest hnode hfield h)

end

end Shape

end DartScaffold
