import DartScaffold.Proofs.Shape.DateText

/-!
The texts in a value and what becomes of them. A shape is inferred from the first element of each list
alone; among the texts that are left then, dates are told from other texts by the language of dates. When
a value is read as a shape, the texts that stay where the shape has a date are those in the language.
-/

namespace DartScaffold

namespace Json

mutual

/-- The texts in a value, in order. Keys are not among them. -/
def texts : Json → List String
  | .str text => [text]
  | .arr items => itemTexts items
  | .obj entries => entryTexts entries
  | _ => []

def itemTexts : List Json → List String
  | [] => []
  | item :: rest => item.texts ++ itemTexts rest

def entryTexts : List (String × Json) → List String
  | [] => []
  | (_, value) :: rest => value.texts ++ entryTexts rest

end

mutual

/-- The value without the elements of its lists that are not first, at any depth. -/
def firsts : Json → Json
  | .arr (item :: _) => .arr [item.firsts]
  | .obj entries => .obj (entryFirsts entries)
  | value => value

def entryFirsts : List (String × Json) → List (String × Json)
  | [] => []
  | (key, value) :: rest => (key, value.firsts) :: entryFirsts rest

end

end Json

namespace Shape

instance (text : String) : Decidable (text.toList ∈ dateTexts) :=
  decidable_of_iff _ (isDateText_iff_mem text)

/-! ### Where a shape has a kind -/

/-- The values of an object, for fields in the same order. -/
def inOrder (_ : Fields) (entries : Entries) : List Json :=
  entries.map Prod.snd

/-- The values of an object that go by the names of the fields. -/
def byName (fields : Fields) (entries : Entries) : List Json :=
  fields.map fun field => (entries.get? field.1).getD .null

mutual

/-- The texts of a value that stand where the shape has a scalar of the kind; `find` tells which values
the fields of an object have. -/
def textsAt (find : Fields → Entries → List Json) (kind : Scalar) : Shape → Json → List String
  | scalar own, .str text => if own = kind then [text] else []
  | list element, .arr items => items.flatMap (textsAt find kind element)
  | object fields, .obj entries => fieldTextsAt find kind fields (find fields entries)
  | _, _ => []

def fieldTextsAt (find : Fields → Entries → List Json) (kind : Scalar) :
    List (String × Shape) → List Json → List String
  | (_, shape) :: fields, value :: values =>
    textsAt find kind shape value ++ fieldTextsAt find kind fields values
  | _, _ => []

end

/-- The kind of the scalar that is inferred from a text. -/
def textKind (text : String) : Scalar :=
  if isDateText text then .datetime else .string

theorem textKind_eq_datetime_iff {text : String} :
    textKind text = .datetime ↔ text.toList ∈ dateTexts := by
  rw [← isDateText_iff_mem, textKind]
  split <;> simp_all

theorem textKind_eq_string_iff {text : String} :
    textKind text = .string ↔ text.toList ∉ dateTexts := by
  rw [← isDateText_iff_mem, textKind]
  split <;> simp_all

/-! ### Inferring -/

mutual

theorem infer_firsts (value : Json) : infer value.firsts = infer value := by
  match value with
  | .null | .bool _ | .int _ | .float _ | .str _ | .arr [] => rfl
  | .arr (item :: _) => rw [Json.firsts, infer, infer, infer_firsts item]
  | .obj entries => rw [Json.firsts, infer, infer, inferFields_entryFirsts entries]

theorem inferFields_entryFirsts (entries : List (String × Json)) :
    inferFields (Json.entryFirsts entries) = inferFields entries := by
  match entries with
  | [] => rfl
  | (key, value) :: rest =>
      rw [Json.entryFirsts, inferFields, inferFields, infer_firsts value,
        inferFields_entryFirsts rest]

end

mutual

theorem textsAt_infer (kind : Scalar) (value : Json) :
    (infer value).textsAt inOrder kind value.firsts =
      value.firsts.texts.filter fun text => textKind text = kind := by
  match value with
  | .null | .bool _ | .int _ | .float _ | .arr [] => rfl
  | .str text =>
      have hfirsts : (Json.str text).firsts = .str text := rfl
      rw [infer, ← textKind, hfirsts, Json.texts, textsAt]
      by_cases hkind : textKind text = kind <;> simp [hkind]
  | .arr (item :: _) =>
      simp [infer, Json.firsts, Json.texts, Json.itemTexts, textsAt, textsAt_infer kind item]
  | .obj entries =>
      rw [infer, Json.firsts, textsAt, inOrder, Json.texts, fieldTextsAt_inferFields kind entries]

theorem fieldTextsAt_inferFields (kind : Scalar) (entries : List (String × Json)) :
    fieldTextsAt inOrder kind (inferFields entries) ((Json.entryFirsts entries).map Prod.snd) =
      (Json.entryTexts (Json.entryFirsts entries)).filter fun text => textKind text = kind := by
  match entries with
  | [] => rfl
  | (key, value) :: rest =>
      rw [inferFields, Json.entryFirsts, List.map_cons, fieldTextsAt, Json.entryTexts,
        List.filter_append, textsAt_infer kind value, fieldTextsAt_inferFields kind rest]

end

/-! ### Reading -/

section Reading

variable {find : Fields → Entries → List Json} {kind : Scalar}

@[simp] theorem textsAt_null (shape : Shape) : shape.textsAt find kind .null = [] := by
  cases shape <;> rfl

theorem textsAt_scalar_of_ne {own : Scalar} (h : own ≠ kind) (value : Json) :
    (scalar own).textsAt find kind value = [] := by
  cases value <;> simp [textsAt, h]

theorem flatMap_textsAt_filter (shape : Shape) (items : List Json) :
    (items.filter (· != .null)).flatMap (shape.textsAt find kind) =
      items.flatMap (shape.textsAt find kind) := by
  induction items with
  | nil => rfl
  | cons item items ih =>
      by_cases hitem : item = .null
      · simp [hitem, ih]
      · simp [hitem, ih]

end Reading

theorem textsAt_conformScalar (own : Scalar) (value : Json) :
    (scalar own).textsAt inOrder .datetime (conformScalar own value) =
      ((scalar own).textsAt byName .datetime value).filter isDateText := by
  by_cases hown : own = .datetime
  · subst hown
    cases value with
    | str text => by_cases hdate : isDateText text = true <;> simp [conformScalar, textsAt, hdate]
    | _ => rfl
  · rw [textsAt_scalar_of_ne hown, textsAt_scalar_of_ne hown, List.filter_nil]

mutual

theorem textsAt_conform (shape : Shape) (value : Json) :
    shape.textsAt inOrder .datetime (conform shape value) =
      (shape.textsAt byName .datetime value).filter isDateText := by
  match shape, value with
  | .scalar own, value =>
      rw [conform]
      exact textsAt_conformScalar own value
  | .list element, .arr items =>
      rw [textsAt, List.filter_flatMap]
      by_cases hdynamic : element = .scalar .dynamic
      · subst hdynamic
        have hnone : ∀ find, textsAt find .datetime (.scalar .dynamic) = fun _ => [] :=
          fun _ => funext (textsAt_scalar_of_ne (by decide))
        simp [conform, textsAt, hnone]
      · rw [conform_arr hdynamic, textsAt, flatMap_textsAt_filter, List.flatMap_map]
        exact List.flatMap_congr fun item _ => textsAt_conform element item
  | .object fields, .obj entries =>
      rw [conform, textsAt, textsAt]
      exact fieldTextsAt_conformFields fields entries
  | .list _, .null | .list _, .bool _ | .list _, .int _ | .list _, .float _ | .list _, .str _
  | .list _, .obj _ | .object _, .null | .object _, .bool _ | .object _, .int _
  | .object _, .float _ | .object _, .str _ | .object _, .arr _ => simp [conform, textsAt]

theorem fieldTextsAt_conformFields (fields : List (String × Shape)) (entries : Entries) :
    fieldTextsAt inOrder .datetime fields (inOrder fields (conformFields fields entries)) =
      (fieldTextsAt byName .datetime fields (byName fields entries)).filter isDateText := by
  match fields with
  | [] => rfl
  | (name, shape) :: rest =>
      have hrest := fieldTextsAt_conformFields rest entries
      rw [inOrder, byName] at hrest ⊢
      rw [conformFields, List.map_cons, List.map_cons, fieldTextsAt, fieldTextsAt,
        List.filter_append, textsAt_conform shape, hrest]

end

/-- A text is taken for a date exactly if it is in the language of dates. So of the texts that a shape is
inferred from, those in the language are dates and the others are not; and of the texts that stand where a
shape has a date, just those in the language are left when the value is read as the shape. -/
theorem dateTexts_exact :
    (∀ text, isDateText text = true ↔ text.toList ∈ dateTexts) ∧
      (∀ value : Json, infer value.firsts = infer value ∧
        (infer value).textsAt inOrder .datetime value.firsts =
          value.firsts.texts.filter (·.toList ∈ dateTexts) ∧
        (infer value).textsAt inOrder .string value.firsts =
          value.firsts.texts.filter (·.toList ∉ dateTexts)) ∧
      ∀ (shape : Shape) (value : Json),
        shape.textsAt inOrder .datetime (conform shape value) =
          (shape.textsAt byName .datetime value).filter (·.toList ∈ dateTexts) := by
  refine ⟨isDateText_iff_mem, fun value => ⟨infer_firsts value, ?_, ?_⟩, fun shape value => ?_⟩
  · simp only [textsAt_infer, textKind_eq_datetime_iff]
  · simp only [textsAt_infer, textKind_eq_string_iff]
  · simp only [textsAt_conform, ← isDateText_iff_mem, Bool.decide_eq_true]

end Shape

end DartScaffold
