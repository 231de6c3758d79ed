import DartScaffold.Proofs.Dart.Identifier
import DartScaffold.Validation.Entry

/-!
The names of APIs whose entries are accepted. Such a name begins with a letter, so its spelling with
capitals is a class name as it stands.
-/

namespace DartScaffold

/-! ### Values that are accepted -/

namespace Schema

variable {α β : Type} {P : β → Prop}

theorem Checked.all_seq {f : Checked (α → β)} {c : Checked α}
    (hf : ∀ g, f = .valid g → ∀ a, P (g a)) : ∀ b, f <*> c = .valid b → P b := by
  intro b h
  cases f with
  | invalid problems => contradiction
  | valid g =>
      cases c with
      | invalid problems => contradiction
      | valid a => exact Checked.valid.inj h ▸ hf g rfl a

theorem Checked.all_map {f : α → β} {c : Checked α} (hc : ∀ a, c = .valid a → P (f a)) :
    ∀ b, f <$> c = .valid b → P b := by
  intro b h
  cases c with
  | invalid problems => contradiction
  | valid a => exact Checked.valid.inj h ▸ hc a rfl

theorem required_nonemptyString {entries : Entries} {key text : String}
    (h : required entries key nonemptyString = .valid text) :
    entries.get? key = some (.str text) := by
  rw [required] at h
  split at h
  · rename_i value hvalue
    rw [hvalue]
    cases value with
    | str s =>
        rw [nonemptyString] at h
        split at h
        · contradiction
        · exact congrArg (some ∘ Json.str) (Checked.valid.inj h)
    | _ => contradiction
  · contradiction

end Schema

theorem Entries.get?_put_self (entries : Entries) (key : String) (value : Json) :
    (entries.put key value).get? key = some value := by
  rw [get?]
  induction entries with
  | nil => simp [put]
  | cons entry entries ih =>
      rw [put]
      split
      · rename_i hkey
        simp [hkey]
      · rename_i hkey
        rw [List.lookup_cons, ih]
        split
        · rename_i heq
          exact absurd (eq_of_beq heq).symm hkey
        · rfl

theorem Api.name_of_ofEntries {entries : Entries} :
    ∀ api, ofEntries entries = .valid api → entries.get? "name" = some (.str api.name) := by
  rw [ofEntries]
  -- the name is the first field, so it goes through the checks of all the others
  iterate 8 refine Schema.Checked.all_seq ?_
  refine Schema.Checked.all_map fun name hname => ?_
  intros
  exact Schema.required_nonemptyString hname

namespace Validation

/-! ### Faults that are no errors -/

/-- None of the faults is an error. -/
def Harmless (faults : List Fault) : Prop :=
  ∀ fault ∈ faults, fault.level ≠ .error

@[simp] theorem harmless_nil : Harmless [] := List.forall_mem_nil _

@[simp] theorem harmless_cons (fault : Fault) (faults : List Fault) :
    Harmless (fault :: faults) ↔ fault.level ≠ .error ∧ Harmless faults :=
  List.forall_mem_cons

@[simp] theorem harmless_append (faults more : List Fault) :
    Harmless (faults ++ more) ↔ Harmless faults ∧ Harmless more :=
  List.forall_mem_append

theorem isValid_map_issue (name : Json) (faults : List Fault) :
    Issues.isValid (faults.map (Fault.issue name)) = true ↔ Harmless faults := by
  have hlevel : ∀ fault : Fault, (fault.issue name).isError = true ↔ fault.level = .error :=
    fun fault => beq_iff_eq
  simp [Issues.isValid, Harmless, ← hlevel]

/-! ### Names that are accepted -/

/-- Every fault of a name is an error. -/
theorem harmless_nameFaults_iff {name : String} : Harmless (nameFaults (.str name)) ↔
    isApiName name = true ∧ Text.camelCase name ∉ Dart.keywords := by
  rw [nameFaults]
  cases isApiName name with
  | false => simp [Fault.level]
  | true =>
      by_cases hkeyword : Text.camelCase name ∈ Dart.keywords <;> simp [hkeyword, Fault.level]

theorem harmless_nameFaults {name : Json} (h : Harmless (nameFaults name)) :
    ∃ s, name = .str s ∧ isApiName s = true := by
  cases name with
  | str s => exact ⟨s, rfl, (harmless_nameFaults_iff.mp h).1⟩
  | _ => simp [nameFaults, Fault.level] at h

theorem nameFaults_subset {name raw : Json} {faults : List Fault}
    (h : entryFaults name raw = .ok faults) : nameFaults name ⊆ faults := by
  cases raw with
  | obj entries =>
      rw [entryFaults] at h
      cases hrecord : recordFaults name.plainText entries with
      | error failure =>
          rw [hrecord] at h
          contradiction
      | ok others =>
          rw [hrecord] at h
          obtain rfl := Except.ok.inj h
          exact List.subset_append_left _ _
  | _ =>
      obtain rfl := Except.ok.inj h
      exact List.subset_append_left _ _

theorem isApiName_of_isValid {name : String} {raw : Json} {issues : Issues}
    (h : entryIssues (.str name) raw = .ok issues) (hvalid : issues.isValid = true) :
    isApiName name = true := by
  rw [entryIssues] at h
  cases hfaults : entryFaults (.str name) raw with
  | error failure =>
      rw [hfaults] at h
      contradiction
  | ok faults =>
      rw [hfaults] at h
      obtain rfl := Except.ok.inj h
      have hharmless := (isValid_map_issue _ _).mp hvalid
      obtain ⟨s, hs, hname⟩ := harmless_nameFaults fun fault hfault =>
        hharmless fault (nameFaults_subset hfaults hfault)
      exact Json.str.inj hs ▸ hname

/-- An entry that is accepted has a good name, and its API has that name. -/
theorem name_of_buildApi {name : String} {raw : Json} {context : Entries} {warnings : List Issue}
    {api : Api} (h : buildApi (.str name) raw context = .ok (warnings, .ok api)) :
    api.name = name ∧ isApiName name = true := by
  rw [buildApi] at h
  cases hissues : entryIssues (.str name) raw with
  | error failure =>
      rw [hissues] at h
      contradiction
  | ok issues =>
      rw [hissues] at h
      obtain ⟨-, hapi⟩ := Prod.mk.inj (Except.ok.inj h)
      cases hvalid : issues.isValid with
      | false => simp [hvalid] at hapi
      | true =>
          rw [if_pos hvalid] at hapi
          have hname := isApiName_of_isValid hissues hvalid
          cases raw with
          | obj entries =>
              rw [apiOfEntry] at hapi
              cases hread : Api.ofEntries (Entries.put entries "name" (.str name)) with
              | invalid problems =>
                  rw [hread] at hapi
                  contradiction
              | valid found =>
                  rw [hread] at hapi
                  obtain rfl := Except.ok.inj hapi
                  have hfound := Api.name_of_ofEntries found hread
                  rw [Entries.get?_put_self] at hfound
                  exact ⟨(Json.str.inj (Option.some.inj hfound)).symm, hname⟩
          | _ => contradiction

theorem classStem_of_isApiName {name : String} (h : isApiName name = true) :
    Dart.classStem name = Text.pascalCase name := by
  rw [isApiName] at h
  split at h
  · contradiction
  · rename_i c rest hname
    exact Dart.classStem_of_isAlpha hname (Bool.and_eq_true_iff.mp h).1

end Validation

end DartScaffold
