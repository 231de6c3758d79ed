import DartScaffold.Proofs.Dart.Field
import DartScaffold.Proofs.Text.Spelling

/-!
The names of the fields of a class, for any keys. A key becomes a small letter with letters and
digits after it, and neither the prefix before a digit nor the ending of a keyword nor a number
makes it a word that a field cannot be called. Main statement: the fields of an object
(`isFieldList_fieldsAt`).
-/

namespace DartScaffold.Dart

/-- A small ASCII letter with ASCII letters and digits after it. -/
def IsFieldName (name : String) : Prop :=
  name.toList.head?.any Char.isLower = true ∧ ∀ c ∈ name.toList, c.isAlphanum = true

instance (name : String) : Decidable (IsFieldName name) :=
  decidable_of_iff (name.toList.head?.any Char.isLower = true ∧
    name.toList.all Char.isAlphanum = true) (by rw [IsFieldName, List.all_eq_true])

theorem IsFieldName.append {name tail : String} (h : IsFieldName name)
    (htail : ∀ c ∈ tail.toList, c.isAlphanum = true) : IsFieldName (name ++ tail) := by
  refine ⟨head?_any_append h.1 tail, ?_⟩
  rw [String.toList_append]
  exact List.forall_mem_append.mpr ⟨h.2, htail⟩

/-- A name that a field of a model class can have. -/
structure IsMemberName (name : String) : Prop where
  spelled : IsFieldName name
  not_keyword : name ∉ keywords
  not_generated : name ∉ generatedMembers

/-- No keyword and no generated member ends as the names do that are changed to be none of them. -/
theorem endings : ∀ word ∈ keywords ++ generatedMembers,
    ¬ "Value".toList <:+ word.toList ∧ word.toList.getLast?.any Char.isDigit = false := by
  decide +kernel

theorem IsMemberName.of_not_mem {name : String} (h : IsFieldName name)
    (hword : name ∉ keywords ++ generatedMembers) : IsMemberName name := by
  rw [List.mem_append, not_or] at hword
  exact ⟨h, hword.1, hword.2⟩

/-! ### Names made from keys -/

theorem isFieldName_camelCase {key : String} (hne : Text.camelCase key ≠ "")
    (hdigit : startsWithDigit (Text.camelCase key) = false) : IsFieldName (Text.camelCase key) := by
  refine ⟨?_, fun _ => Text.isAlphanum_of_mem_camelCase⟩
  cases hchars : (Text.camelCase key).toList with
  | nil => exact absurd (String.toList_eq_nil_iff.mp hchars) hne
  | cons c rest =>
      rw [startsWithDigit, hchars] at hdigit
      have hfirst : c ∈ (Text.camelChars false key.toList).head? := by
        rw [← Text.toList_camelCase, hchars]
        rfl
      simpa [hdigit] using Text.of_mem_head?_camelChars hfirst

theorem isMemberName_fieldName (key : String) : IsMemberName (fieldName key) := by
  rw [fieldName]
  dsimp only
  split
  · exact .of_not_mem (by decide) (by decide)
  · rename_i hne
    have hname : IsFieldName (if startsWithDigit (Text.camelCase key) = true then
        "value" ++ Text.camelCase key else Text.camelCase key) := by
      split
      · have hvalue : IsFieldName "value" := by decide
        exact hvalue.append fun _ => Text.isAlphanum_of_mem_camelCase
      · rename_i hdigit
        exact isFieldName_camelCase hne (by simpa using hdigit)
    generalize (if startsWithDigit (Text.camelCase key) = true then
        "value" ++ Text.camelCase key else Text.camelCase key) = name at hname
    split
    · refine .of_not_mem (hname.append (by simp)) fun hmem => ?_
      exact (endings _ hmem).1 (by simp)
    · rename_i hword
      exact .of_not_mem hname (by simpa using hword)

/-- A number at the end makes no keyword of a name. -/
theorem IsMemberName.candidate {base : String} (h : IsMemberName base) (tries : Nat) :
    IsMemberName (Text.candidate base tries) := by
  cases tries with
  | zero => exact h
  | succ tries =>
      refine .of_not_mem (h.spelled.append fun c hc => ?_) fun hmem => ?_
      · simp [Char.isAlphanum, Text.isDigit_of_mem_toString hc]
      · have hdigit := Text.getLast?_numbered base (tries + 2)
        exact Bool.noConfusion (hdigit.symm.trans (endings _ hmem).2)

/-! ### The fields of an object -/

/-- What `fields` has to be for the entries `node` of the object at `path`, beside names that are
reserved: one field for each key, in order, each named as its key unless that name is taken, and
else by the first number that is free. -/
structure IsFieldList (path : Path) (reserved : List String) (node : Fields) (fields : List Field) :
    Prop where
  entries : fields.map (fun f => (f.key, f.shape)) = node
  path : ∀ f ∈ fields, f.path = path ++ [f.key]
  distinct : (fields.map Field.name).Nodup
  fresh : ∀ f ∈ fields, f.name ∉ reserved
  legal : ∀ f ∈ fields, IsMemberName f.name
  chosen : ∀ before f after, fields = before ++ f :: after →
    Text.IsFirstUnused (fieldName f.key) (reserved ++ before.map Field.name) f.name
  kept : ∀ before f after, fields = before ++ f :: after → fieldName f.key ∉ reserved →
    (∀ g ∈ before, g.name ≠ fieldName f.key) → f.name = fieldName f.key

section Fields

variable (path : Path) (used : List String) (node : Fields)

theorem entries_fieldsAt :
    (fieldsAt path used node).map (fun f => (f.key, f.shape)) = node := by
  induction node generalizing used with
  | nil => rfl
  | cons entry rest ih => rw [fieldsAt, List.map_cons, ih]

theorem path_of_mem_fieldsAt : ∀ f ∈ fieldsAt path used node, f.path = path ++ [f.key] := by
  induction node generalizing used with
  | nil => simp [fieldsAt]
  | cons entry rest ih =>
      rw [fieldsAt]
      exact List.forall_mem_cons.mpr ⟨rfl, ih _⟩

/-- Each field takes the first name that is left to it. -/
theorem isFirstUnused_of_fieldsAt {before after : List Field} {f : Field}
    (h : fieldsAt path used node = before ++ f :: after) :
    Text.IsFirstUnused (fieldName f.key) (used ++ before.map Field.name) f.name := by
  induction node generalizing used before with
  | nil => simp [fieldsAt] at h
  | cons entry rest ih =>
      rw [fieldsAt] at h
      cases before with
      | nil =>
          obtain ⟨rfl, -⟩ := List.cons.inj h
          simpa using Text.isFirstUnused_unusedName (fieldName entry.1) used
      | cons first before =>
          obtain ⟨rfl, hrest⟩ := List.cons.inj h
          refine (ih _ hrest).perm ?_
          rw [List.map_cons]
          exact List.perm_middle.symm

theorem isMemberName_of_mem_fieldsAt : ∀ f ∈ fieldsAt path used node, IsMemberName f.name := by
  intro f hf
  obtain ⟨before, after, hsplit⟩ := List.append_of_mem hf
  obtain ⟨tries, -, hname, -⟩ := isFirstUnused_of_fieldsAt path used node hsplit
  rw [hname]
  exact (isMemberName_fieldName f.key).candidate tries

/-- The fields made from an object: one for each key, in the order of the keys, with the path
extended by the key. Their names are distinct and none of the reserved ones, each of them is a legal
name, and the search for each ends: it is that of its key unless this is reserved or an earlier
field's, else the first free one with a number. -/
theorem isFieldList_fieldsAt : IsFieldList path used node (fieldsAt path used node) where
  entries := entries_fieldsAt path used node
  path := path_of_mem_fieldsAt path used node
  distinct := nodup_names_fieldsAt path used node
  fresh := name_not_mem_of_mem_fieldsAt path used node
  legal := isMemberName_of_mem_fieldsAt path used node
  chosen := fun _ _ _ => isFirstUnused_of_fieldsAt path used node
  kept := by
    intro before f after hsplit hreserved hearlier
    refine (isFirstUnused_of_fieldsAt path used node hsplit).eq_base fun hmem => ?_
    rcases List.mem_append.mp hmem with hmem | hmem
    · exact hreserved hmem
    · obtain ⟨g, hg, hname⟩ := List.mem_map.mp hmem
      exact hearlier g hg hname

end Fields

end DartScaffold.Dart
