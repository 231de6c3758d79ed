import DartScaffold.Dart.Field
import DartScaffold.Proofs.Dart.Identifier
import DartScaffold.Proofs.Text.Numbered
import DartScaffold.Proofs.Text.Span

/-!
The names in generated code are plain: letters, digits and underscores, and a dot before a name from
another file. So no blank, bracket or colon in a line belongs to a name.
-/

namespace DartScaffold.Dart

def IsPlain (name : String) : Prop :=
  ∀ c ∈ name.toList, c.isAlphanum = true ∨ c = '_' ∨ c = '.'

instance (name : String) : Decidable (IsPlain name) :=
  decidable_of_iff (name.toList.all (fun c => c.isAlphanum || c == '_' || c == '.') = true)
    (by simp [IsPlain, or_assoc])

theorem IsPlain.not_mem {name : String} (h : IsPlain name) {c : Char}
    (halpha : c.isAlphanum = false) (hother : c ≠ '_' ∧ c ≠ '.') : c ∉ name.toList := by
  intro hc
  rcases h c hc with hc | hc | hc
  · exact Bool.noConfusion (halpha.symm.trans hc)
  · exact hother.1 hc
  · exact hother.2 hc

theorem IsPlain.newline_not_mem {name : String} (h : IsPlain name) : '\n' ∉ name.toList :=
  h.not_mem (by decide) (by decide)

theorem IsPlain.space_not_mem {name : String} (h : IsPlain name) : ' ' ∉ name.toList :=
  h.not_mem (by decide) (by decide)

/-- A name is read up to the character that ends it. -/
theorem IsPlain.takeWhile_ne {name : String} (h : IsPlain name) {c : Char}
    (halpha : c.isAlphanum = false) (hother : c ≠ '_' ∧ c ≠ '.') (rest : List Char) :
    String.ofList ((name.toList ++ c :: rest).takeWhile (· != c)) = name := by
  have hname : ∀ d ∈ name.toList, (d != c) = true := by
    intro d hd
    have hne : d ≠ c := fun heq => h.not_mem halpha hother (heq ▸ hd)
    simpa using hne
  rw [Text.takeWhile_append_stop hname (by simp), String.ofList_toList]

theorem IsPlain.append {name tail : String} (h : IsPlain name) (htail : IsPlain tail) :
    IsPlain (name ++ tail) := by
  intro c hc
  rw [String.toList_append] at hc
  exact (List.mem_append.mp hc).elim (h c) (htail c)

theorem isPlain_of_isAlphanum {name : String} (h : ∀ c ∈ name.toList, c.isAlphanum = true) :
    IsPlain name :=
  fun c hc => .inl (h c hc)

theorem IsTypeName.isPlain {name : String} (h : IsTypeName name) : IsPlain name :=
  isPlain_of_isAlphanum h.2

theorem isPlain_snakeCase (name : String) : IsPlain (Text.snakeCase name) :=
  fun _ hc => (Text.of_mem_snakeCase hc).imp id .inl

theorem isPlain_ite {name other : String} (p : Prop) [Decidable p] (h : IsPlain name)
    (hother : IsPlain other) : IsPlain (if p then name else other) := by
  split
  · exact h
  · exact hother

theorem isPlain_fieldName (key : String) : IsPlain (fieldName key) := by
  have hvalue : IsPlain "value" := by decide
  have hcamel : IsPlain (Text.camelCase key) :=
    isPlain_of_isAlphanum fun _ => Text.isAlphanum_of_mem_camelCase
  have hname := isPlain_ite (startsWithDigit (Text.camelCase key)) (hvalue.append hcamel) hcamel
  exact isPlain_ite _ hvalue
    (isPlain_ite _ (hname.append (by decide)) hname)

theorem isPlain_unusedName {base : String} (h : IsPlain base) (used : List String) :
    IsPlain (Text.unusedName base used) := by
  obtain ⟨tail, htail, hname⟩ := Text.unusedName_eq base used
  rw [hname]
  exact h.append (isPlain_of_isAlphanum fun c hc => by simp [Char.isAlphanum, htail c hc])

theorem isPlain_of_mem_fieldsAt {path : Path} {used : List String} {node : Fields} {f : Field}
    (h : f ∈ fieldsAt path used node) : IsPlain f.name := by
  induction node generalizing used with
  | nil => simp [fieldsAt] at h
  | cons entry rest ih =>
      obtain ⟨key, shape⟩ := entry
      rw [fieldsAt] at h
      rcases List.mem_cons.mp h with rfl | h
      · exact isPlain_unusedName (isPlain_fieldName key) used
      · exact ih h

/-! ### Distinct names -/

theorem ite_ne_empty {p : Prop} [Decidable p] {name other : String} (h : name ≠ "")
    (hother : other ≠ "") : (if p then name else other) ≠ "" := by
  split
  · exact h
  · exact hother

theorem fieldName_ne (key : String) : fieldName key ≠ "" := by
  rw [fieldName]
  dsimp only
  by_cases hcamel : Text.camelCase key = ""
  · rw [if_pos hcamel]
    decide
  · rw [if_neg hcamel]
    exact ite_ne_empty (by simp) (ite_ne_empty (by simp) hcamel)

theorem unusedName_ne {base : String} (h : base ≠ "") (used : List String) :
    Text.unusedName base used ≠ "" := by
  obtain ⟨tail, -, hname⟩ := Text.unusedName_eq base used
  simp [hname, h]

section Fields

variable (path : Path) (used : List String) (node : Fields)

theorem name_ne_of_mem_fieldsAt : ∀ f ∈ fieldsAt path used node, f.name ≠ "" := by
  induction node generalizing used with
  | nil => simp [fieldsAt]
  | cons entry rest ih =>
      rw [fieldsAt]
      exact List.forall_mem_cons.mpr ⟨unusedName_ne (fieldName_ne _) used, ih _⟩

/-- A field takes no name that is used already. -/
theorem name_not_mem_of_mem_fieldsAt : ∀ f ∈ fieldsAt path used node, f.name ∉ used := by
  induction node generalizing used with
  | nil => simp [fieldsAt]
  | cons entry rest ih =>
      rw [fieldsAt]
      refine List.forall_mem_cons.mpr ⟨Text.unusedName_not_mem _ used, fun f hf hmem => ?_⟩
      exact ih _ f hf (List.mem_cons_of_mem _ hmem)

theorem nodup_names_fieldsAt : ((fieldsAt path used node).map Field.name).Nodup := by
  induction node generalizing used with
  | nil => exact List.nodup_nil
  | cons entry rest ih =>
      rw [fieldsAt, List.map_cons, List.nodup_cons]
      refine ⟨fun hmem => ?_, ih _⟩
      obtain ⟨f, hf, hname⟩ := List.mem_map.mp hmem
      exact name_not_mem_of_mem_fieldsAt path _ rest f hf (hname ▸ List.mem_cons_self)

theorem length_fieldsAt : (fieldsAt path used node).length = node.length := by
  induction node generalizing used with
  | nil => rfl
  | cons entry rest ih => rw [fieldsAt, List.length_cons, List.length_cons, ih]

end Fields

end DartScaffold.Dart
