import DartScaffold.Proofs.Shape.Nodes
import DartScaffold.Shape.Conform

/-!
The values of a shape, and what is left of any value when it is read as one. Reading is a projection:
it ends in the values of the shape and null, and those it leaves as they are. A sample that is read as
its own shape keeps that shape, whatever elements its lists lose, for the element that gives a list its
shape stays first.
-/

namespace DartScaffold

/-- The values of a scalar. An integer may stand for a floating-point number, and a truth value for
neither of them. -/
inductive Scalar.Admits : Scalar → Json → Prop where
  | bool (b : Bool) : Admits .bool (.bool b)
  | int (i : Int) : Admits .int (.int i)
  | integral (i : Int) : Admits .double (.int i)
  | double (x : Binary64) : Admits .double (.float x)
  | string (text : String) : Admits .string (.str text)
  | datetime {text : String} (h : Shape.isDateText text = true) : Admits .datetime (.str text)
  | dynamic (value : Json) : Admits .dynamic value

/-- Under distinct keys each entry is found. -/
theorem Entries.get?_of_mem {entries : Entries} (hkeys : (entries.map Prod.fst).Nodup)
    {key : String} {value : Json} (h : (key, value) ∈ entries) : entries.get? key = some value := by
  induction entries with
  | nil => contradiction
  | cons entry rest ih =>
      obtain ⟨first, own⟩ := entry
      rw [List.map_cons, List.nodup_cons] at hkeys
      rw [Entries.get?, List.lookup_cons]
      rcases List.mem_cons.mp h with heq | hrest
      · obtain ⟨rfl, rfl⟩ : key = first ∧ value = own := by simpa using heq
        rw [beq_self_eq_true]
      · have hne : key ≠ first := by
          rintro rfl
          exact hkeys.1 (List.mem_map.mpr ⟨_, hrest, rfl⟩)
        rw [beq_eq_false_iff_ne.mpr hne]
        exact ih hkeys.2 hrest

namespace Shape

mutual

/-- The values of a shape. An object has exactly the fields of the shape, in order; the elements of a
list are not null unless anything goes. -/
def Admits : Shape → Json → Prop
  | scalar kind, value => kind.Admits value
  | list element, .arr items =>
    ∀ item ∈ items, element.Admits item ∧ (element ≠ scalar .dynamic → item ≠ .null)
  | object fields, .obj entries => FieldsAdmit fields entries
  | _, _ => False

/-- Each field is null or has a value of its shape. -/
def FieldsAdmit : List (String × Shape) → List (String × Json) → Prop
  | [], [] => True
  | (name, shape) :: fields, (key, value) :: entries =>
    key = name ∧ (value = .null ∨ shape.Admits value) ∧ FieldsAdmit fields entries
  | _, _ => False

end

/-! ### Reading -/

theorem conform_null (shape : Shape) : conform shape .null = .null := by
  match shape with
  | .scalar kind => cases kind <;> rfl
  | .list element => rw [conform] <;> simp
  | .object fields => rw [conform] <;> simp

theorem map_fst_conformFields (fields : Fields) (entries : Entries) :
    (conformFields fields entries).map Prod.fst = fields.map Prod.fst := by
  induction fields with
  | nil => rfl
  | cons field rest ih => rw [conformFields, List.map_cons, List.map_cons, ih]

theorem mem_conformFields {fields : Fields} {key : String} {shape : Shape}
    (h : (key, shape) ∈ fields) (entries : Entries) :
    (key, conform shape ((entries.get? key).getD .null)) ∈ conformFields fields entries := by
  induction fields with
  | nil => contradiction
  | cons field rest ih =>
      rw [conformFields]
      rcases List.mem_cons.mp h with rfl | h
      · exact List.mem_cons_self
      · exact List.mem_cons_of_mem _ (ih h)

/-- A field has the value that conforms to its own shape. -/
theorem get?_conformFields {fields : Fields} (hkeys : (fields.map Prod.fst).Nodup)
    {key : String} {shape : Shape} (h : (key, shape) ∈ fields) (entries : Entries) :
    Entries.get? (conformFields fields entries) key =
      some (conform shape ((entries.get? key).getD .null)) := by
  refine Entries.get?_of_mem ?_ (mem_conformFields h entries)
  rwa [map_fst_conformFields]

theorem conform_arr {element : Shape} (h : element ≠ .scalar .dynamic) (items : List Json) :
    conform (.list element) (.arr items) =
      .arr ((items.map (conform element)).filter (· != .null)) := by
  rw [conform]
  exact h

/-- The elements of a list conform as well, except that dynamic ones are kept as they are. -/
theorem conform_list {element : Shape} {value : Json}
    (h : conform (.list element) value ≠ .null) :
    ∃ items, conform (.list element) value = .arr items ∧
      (element = .scalar .dynamic ∨
        ∀ item ∈ items, item ≠ .null ∧ ∃ origin, item = conform element origin) := by
  by_cases harr : ∃ items, value = .arr items
  · obtain ⟨items, rfl⟩ := harr
    by_cases hdynamic : element = .scalar .dynamic
    · subst hdynamic
      exact ⟨items, rfl, .inl rfl⟩
    · refine ⟨_, conform_arr hdynamic items, .inr fun item hitem => ?_⟩
      obtain ⟨hmem, hne⟩ := List.mem_filter.mp hitem
      obtain ⟨origin, -, rfl⟩ := List.mem_map.mp hmem
      exact ⟨by simpa using hne, origin, rfl⟩
  · refine absurd ?_ h
    rw [conform] <;> simp_all

theorem conform_object {fields : Fields} {value : Json}
    (h : conform (.object fields) value ≠ .null) :
    ∃ entries, conform (.object fields) value = .obj (conformFields fields entries) := by
  by_cases hobj : ∃ entries, value = .obj entries
  · obtain ⟨entries, rfl⟩ := hobj
    exact ⟨entries, by rw [conform]⟩
  · refine absurd ?_ h
    rw [conform] <;> simp_all

theorem conform_datetime {value : Json} (h : conform (.scalar .datetime) value ≠ .null) :
    ∃ text, conform (.scalar .datetime) value = .str text := by
  cases value with
  | str text =>
      rw [conform, conformScalar] at h ⊢
      split at h
      · exact ⟨text, by simp [*]⟩
      · contradiction
  | _ => exact absurd rfl h

/-! ### The values that are left -/

theorem admits_conformScalar (kind : Scalar) (value : Json) :
    conformScalar kind value = .null ∨ kind.Admits (conformScalar kind value) := by
  rw [conformScalar.eq_def]
  split
  · exact .inr (.bool _)
  · exact .inr (.int _)
  · exact .inr (.integral _)
  · exact .inr (.double _)
  · exact .inr (.string _)
  · split
    · rename_i hdate
      exact .inr (.datetime hdate)
    · exact .inl rfl
  · exact .inr (.dynamic _)
  · exact .inl rfl

mutual

theorem admits_conform (shape : Shape) (value : Json) (h : conform shape value ≠ .null) :
    shape.Admits (conform shape value) := by
  match shape with
  | .scalar kind => exact (admits_conformScalar kind value).resolve_left h
  | .list element =>
      obtain ⟨items, hitems, hkind⟩ := conform_list h
      rw [hitems, Admits]
      intro item hitem
      rcases hkind with rfl | hconform
      · exact ⟨.dynamic item, fun hne => absurd rfl hne⟩
      · obtain ⟨hne, origin, rfl⟩ := hconform item hitem
        exact ⟨admits_conform element origin hne, fun _ => hne⟩
  | .object fields =>
      obtain ⟨entries, hentries⟩ := conform_object h
      rw [hentries, Admits]
      exact fieldsAdmit_conformFields fields entries

theorem fieldsAdmit_conformFields (fields : List (String × Shape)) (entries : Entries) :
    FieldsAdmit fields (conformFields fields entries) := by
  match fields with
  | [] => trivial
  | (name, shape) :: rest =>
      rw [conformFields, FieldsAdmit]
      refine ⟨rfl, ?_, fieldsAdmit_conformFields rest entries⟩
      by_cases hnull : conform shape ((entries.get? name).getD .null) = .null
      · exact .inl hnull
      · exact .inr (admits_conform shape _ hnull)

end

/-! ### The values that stay -/

theorem conformScalar_of_admits {kind : Scalar} {value : Json} (h : kind.Admits value) :
    conformScalar kind value = value := by
  cases h with
  | datetime hdate => simp [conformScalar, hdate]
  | _ => rfl

/-- An object with the fields of the shape has all of them under their names. -/
theorem map_fst_of_fieldsAdmit {fields : Fields} {entries : Entries} (h : FieldsAdmit fields entries) :
    entries.map Prod.fst = fields.map Prod.fst := by
  induction fields generalizing entries with
  | nil =>
      cases entries with
      | nil => rfl
      | cons entry rest => simp [FieldsAdmit] at h
  | cons field fields ih =>
      cases entries with
      | nil => simp [FieldsAdmit] at h
      | cons entry rest =>
          rw [FieldsAdmit] at h
          rw [List.map_cons, List.map_cons, h.1, ih h.2.2]

mutual

theorem conform_of_admits (shape : Shape) (hkeys : shape.KeysDistinct) (value : Json)
    (h : shape.Admits value) : conform shape value = value := by
  match shape, value with
  | .scalar kind, value => exact conformScalar_of_admits h
  | .list element, .arr items =>
      rw [Admits] at h
      by_cases hdynamic : element = .scalar .dynamic
      · subst hdynamic
        rw [conform]
      · have hsame : ∀ item ∈ items, conform element item = item := fun item hitem =>
          conform_of_admits element hkeys item (h item hitem).1
        have hkept : ∀ item ∈ items, (item != .null) = true := fun item hitem =>
          bne_iff_ne.mpr ((h item hitem).2 hdynamic)
        rw [conform_arr hdynamic, List.map_congr_left hsame, List.map_id', List.filter_eq_self.mpr hkept]
  | .object fields, .obj entries =>
      rw [KeysDistinct] at hkeys
      rw [Admits] at h
      have hnodup : (entries.map Prod.fst).Nodup := map_fst_of_fieldsAdmit h ▸ hkeys.1
      have hall : ∀ entry ∈ entries, Entries.get? entries entry.1 = some entry.2 := fun _ =>
        Entries.get?_of_mem hnodup
      rw [conform, conformFields_of_admits fields hkeys.2 entries entries hall h]

theorem conformFields_of_admits (fields : List (String × Shape)) (hkeys : FieldsKeysDistinct fields)
    (entries : List (String × Json)) (whole : Entries)
    (hwhole : ∀ entry ∈ entries, whole.get? entry.1 = some entry.2) (h : FieldsAdmit fields entries) :
    conformFields fields whole = entries := by
  match fields, entries with
  | [], [] => rfl
  | (name, shape) :: fields, (key, value) :: entries =>
      rw [FieldsKeysDistinct] at hkeys
      rw [FieldsAdmit] at h
      obtain ⟨rfl, hvalue, hrest⟩ := h
      obtain ⟨hfirst, hothers⟩ := List.forall_mem_cons.mp hwhole
      have hsame : conform shape value = value := by
        rcases hvalue with rfl | hvalue
        · exact conform_null shape
        · exact conform_of_admits shape hkeys.1 value hvalue
      rw [conformFields, hfirst, Option.getD_some, hsame,
        conformFields_of_admits fields hkeys.2 entries whole hothers hrest]

end

/-- What is read of a value is all of it exactly for null and the values of the shape. -/
theorem conform_eq_self_iff {shape : Shape} (hkeys : shape.KeysDistinct) {value : Json} :
    conform shape value = value ↔ value = .null ∨ shape.Admits value := by
  constructor
  · intro h
    by_cases hnull : value = .null
    · exact .inl hnull
    · have hadmits := admits_conform shape value (h.symm ▸ hnull)
      exact .inr (h ▸ hadmits)
  · rintro (rfl | h)
    · exact conform_null shape
    · exact conform_of_admits shape hkeys value h

/-! ### A sample under its own shape -/

theorem conform_infer_ne_null {value : Json} (h : infer value ≠ .scalar .dynamic) :
    conform (infer value) value ≠ .null := by
  cases value with
  | null => exact absurd rfl h
  | arr items =>
      cases items with
      | nil => simp [infer, conform]
      | cons item rest =>
          rw [infer]
          by_cases hitem : infer item = .scalar .dynamic
          · simp [hitem, conform]
          · simp [conform_arr hitem]
  | str text =>
      by_cases hdate : isDateText text = true
      · simp [infer, conform, conformScalar, hdate]
      · simp [infer, conform, conformScalar, hdate]
  | _ => simp [infer, conform, conformScalar]

mutual

theorem infer_conform_infer (value : Json) (h : value.KeysDistinct) :
    infer (conform (infer value) value) = infer value := by
  match value with
  | .null | .bool _ | .int _ | .float _ => simp [infer, conform, conformScalar]
  | .str text =>
      by_cases hdate : isDateText text = true
      · simp [infer, conform, conformScalar, hdate]
      · simp [infer, conform, conformScalar, hdate]
  | .arr [] => simp [infer, conform]
  | .arr (item :: rest) =>
      rw [Json.KeysDistinct, Json.ItemsKeysDistinct] at h
      rw [infer]
      by_cases hdynamic : infer item = .scalar .dynamic
      · rw [hdynamic, conform, infer, hdynamic]
      · -- the first element stays, and gives the list its shape again
        have hfirst : (conform (infer item) item != .null) = true :=
          bne_iff_ne.mpr (conform_infer_ne_null hdynamic)
        rw [conform_arr hdynamic, List.map_cons, List.filter_cons, if_pos hfirst, infer,
          infer_conform_infer item h.1]
  | .obj entries =>
      rw [Json.KeysDistinct] at h
      have hwhole : ∀ entry ∈ entries, Entries.get? entries entry.1 = some entry.2 := fun _ =>
        Entries.get?_of_mem h.1
      rw [infer, conform, infer, infer_conformFields entries h.2 entries hwhole]

theorem infer_conformFields (entries : List (String × Json)) (h : Json.EntriesKeysDistinct entries)
    (whole : Entries) (hwhole : ∀ entry ∈ entries, whole.get? entry.1 = some entry.2) :
    inferFields (conformFields (inferFields entries) whole) = inferFields entries := by
  match entries with
  | [] => rfl
  | (key, value) :: rest =>
      rw [Json.EntriesKeysDistinct] at h
      obtain ⟨hfirst, hothers⟩ := List.forall_mem_cons.mp hwhole
      rw [inferFields, conformFields, hfirst, Option.getD_some, inferFields,
        infer_conform_infer value h.1, infer_conformFields rest h.2 whole hothers]

end

/-- Reading values as a shape is a projection onto its values and null, which it leaves as they are.
A sample that is read as the shape inferred from it has that shape still. -/
theorem conform_projection :
    (∀ shape : Shape, shape.KeysDistinct → ∀ value,
      (conform shape value = .null ∨ shape.Admits (conform shape value)) ∧
        conform shape (conform shape value) = conform shape value ∧
        (conform shape value = value ↔ value = .null ∨ shape.Admits value)) ∧
      ∀ value : Json, value.KeysDistinct → infer (conform (infer value) value) = infer value := by
  refine ⟨fun shape hkeys value => ?_, infer_conform_infer⟩
  have hleft : conform shape value = .null ∨ shape.Admits (conform shape value) := by
    by_cases hnull : conform shape value = .null
    · exact .inl hnull
    · exact .inr (admits_conform shape value hnull)
  exact ⟨hleft, (conform_eq_self_iff hkeys).mpr hleft, conform_eq_self_iff hkeys⟩

def visitShape : Shape :=
  .object [("id", .scalar .int), ("score", .scalar .double), ("at", .scalar .datetime),
    ("tags", .list (.scalar .string))]

/-- A visit with fields and elements of other shapes than `visitShape` has. -/
def visit : Json :=
  .obj [("tags", .arr [.str "a", .null, .int 2, .str "b"]), ("at", .str "soon"), ("id", .bool true),
    ("score", .int 2), ("more", .arr [.arr [], .bool true])]

theorem conform_projection_visit :
    visitShape.KeysDistinct ∧ visit.KeysDistinct ∧
      conform visitShape visit = .obj [("id", .null), ("score", .int 2), ("at", .null),
        ("tags", .arr [.str "a", .str "b"])] ∧
      visitShape.Admits (conform visitShape visit) ∧
      conform visitShape (conform visitShape visit) = conform visitShape visit ∧
      infer (conform (infer visit) visit) = infer visit := by
  have hshape : visitShape.KeysDistinct := by
    simp [visitShape, KeysDistinct, FieldsKeysDistinct]
  have hvisit : visit.KeysDistinct := by
    simp [visit, Json.KeysDistinct, Json.ItemsKeysDistinct, Json.EntriesKeysDistinct]
  have hread : conform visitShape visit = .obj [("id", .null), ("score", .int 2), ("at", .null),
      ("tags", .arr [.str "a", .str "b"])] := by
    decide +kernel
  obtain ⟨hleft, hagain, -⟩ := conform_projection.1 visitShape hshape visit
  exact ⟨hshape, hvisit, hread, hleft.resolve_left (by simp [hread]), hagain,
    conform_projection.2 visit hvisit⟩

end Shape

end DartScaffold
