import DartScaffold.Dart.Identifier
import DartScaffold.Proofs.Text.Case

/-!
Class names are legal: a capital, then letters and digits. This is kept by whatever letters and digits
come after.
-/

namespace DartScaffold.Dart

/-- An ASCII capital with ASCII letters and digits after it. -/
def IsTypeName (name : String) : Prop :=
  name.toList.head?.any Char.isUpper = true ∧ ∀ c ∈ name.toList, c.isAlphanum = true

instance (name : String) : Decidable (IsTypeName name) :=
  decidable_of_iff (name.toList.head?.any Char.isUpper = true ∧
    name.toList.all Char.isAlphanum = true) (by rw [IsTypeName, List.all_eq_true])

/-- What a name begins with is kept by whatever comes after. -/
theorem head?_any_append {p : Char → Bool} {name : String} (h : name.toList.head?.any p = true)
    (tail : String) : (name ++ tail).toList.head?.any p = true := by
  cases hname : name.toList with
  | nil => simp [hname] at h
  | cons c rest =>
      rw [hname] at h
      rw [String.toList_append, hname]
      exact h

theorem IsTypeName.append {name tail : String} (h : IsTypeName name)
    (htail : ∀ c ∈ tail.toList, c.isAlphanum = true) : IsTypeName (name ++ tail) := by
  refine ⟨head?_any_append h.1 tail, ?_⟩
  rw [String.toList_append]
  exact List.forall_mem_append.mpr ⟨h.2, htail⟩

theorem isTypeName_classStem (name : String) : IsTypeName (classStem name) := by
  have hvalue : IsTypeName "Value" := by decide
  have hall : ∀ c ∈ (Text.pascalCase name).toList, c.isAlphanum = true :=
    fun _ => Text.isAlphanum_of_mem_pascalCase
  rw [classStem]
  split
  · exact hvalue
  · rename_i hne
    split
    · exact hvalue.append hall
    · rename_i hdigit
      refine ⟨?_, hall⟩
      cases hchars : (Text.pascalCase name).toList with
      | nil => exact absurd (String.toList_eq_nil_iff.mp hchars) hne
      | cons c rest =>
          have hmem : c ∈ (Text.pascalCase name).toList.head? := by simp [hchars]
          have hfirst := Text.of_mem_head?_pascalCase hmem
          rw [startsWithDigit, hchars] at hdigit
          simpa [hdigit] using hfirst

/-- A name that begins with a letter becomes a class name by its capitals alone. -/
theorem classStem_of_isAlpha {name : String} {c : Char} {rest : List Char}
    (hname : name.toList = c :: rest) (hc : c.isAlpha = true) :
    classStem name = Text.pascalCase name := by
  have halnum : c.isAlphanum = true := by simp [Char.isAlphanum, hc]
  obtain ⟨tail, hpascal⟩ := Text.toList_pascalCase_cons hname halnum
  have hne : Text.pascalCase name ≠ "" := by
    intro hempty
    rw [hempty] at hpascal
    contradiction
  have hdigit : startsWithDigit (Text.pascalCase name) = false := by
    rw [startsWithDigit, hpascal]
    exact Text.isDigit_of_isAlpha hc
  simp [classStem, hne, hdigit]

end DartScaffold.Dart
