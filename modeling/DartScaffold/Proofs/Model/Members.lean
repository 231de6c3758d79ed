import DartScaffold.Api.Basic
import DartScaffold.Proofs.Model.Signature

/-!
The members of the root class of a request body: what its kind brings, the parameters of the URL
path, and the fields. The fields keep clear of all the others and of each other. The parameters are
named from the placeholders as they are spelled, so that two of them, or one and a member that the
kind brings, can be called the same: this is the only way for a member to be declared twice
(`names_nodup_iff`).
-/

namespace DartScaffold.Model

open Dart (IsPlain Field)

theorem nodup_pathParams (api : Api) : api.pathParams.Nodup :=
  Text.nodup_eraseDups _

/-- The members that every request body has. -/
def bodyMembers (multipart : Bool) : List String :=
  "rawBody" :: if multipart then ["files"] else []

theorem nodup_bodyMembers (multipart : Bool) : (bodyMembers multipart).Nodup := by
  cases multipart <;> decide

theorem names_parameters (m : Members) : m.parameters.map Parameter.name = m.names := by
  simp [Members.parameters, Members.names, Function.comp_def]

section Body

variable (options : BodyOptions) (path : Path) (node : Fields)

theorem fixed_members_body :
    (members .body options path node).fixed.map Prod.fst = bodyMembers options.multipart := by
  cases hmultipart : options.multipart <;> simp [members, Kind.isBody, bodyMembers, hmultipart]

theorem names_members_body :
    (members .body options path node).names = bodyMembers options.multipart ++
      options.pathParams.map Dart.fieldName ++
      (members .body options path node).fields.map Field.name := by
  rw [Members.names, fixed_members_body]
  rfl

/-- No field is called like a member before it. -/
theorem name_not_mem_of_mem_members :
    ∀ f ∈ (members .body options path node).fields,
      f.name ∉ bodyMembers options.multipart ++ options.pathParams.map Dart.fieldName := by
  intro f hf
  rw [← fixed_members_body options path node]
  exact Dart.name_not_mem_of_mem_fieldsAt path _ node f hf

end Body

/-- The root class of a request body declares what its kind brings, then the parameters of the URL
path, then the fields, as its constructor shows. The fields are distinct and apart from the others.
All of them are distinct if and only if no two placeholders of the path give the same identifier
and none gives that of a member that the kind brings. -/
theorem names_nodup_iff (api : Api) (multipart : Bool) (node : Fields) :
    let options : BodyOptions := { pathParams := api.pathParams, multipart }
    let m := members .body options [] node
    m.names = bodyMembers multipart ++ api.pathParams.map Dart.fieldName ++
        m.fields.map Field.name ∧
      (∀ (dateCall : String) (nameOf : Path → String), IsPlain (nameOf []) →
        ∃ s, readSignature (classText { kind := .body, dateCall } nameOf options [] node) = some s ∧
          s.parameters.map Parameter.name = m.names) ∧
      (m.fields.map Field.name).Nodup ∧
      (∀ f ∈ m.fields, f.name ∉ bodyMembers multipart ++ api.pathParams.map Dart.fieldName) ∧
      (m.names.Nodup ↔
        (∀ p ∈ api.pathParams, ∀ q ∈ api.pathParams, Dart.fieldName p = Dart.fieldName q → p = q) ∧
          ∀ p ∈ api.pathParams, Dart.fieldName p ∉ bodyMembers multipart) := by
  intro options m
  have hnames : m.names = bodyMembers multipart ++ api.pathParams.map Dart.fieldName ++
      m.fields.map Field.name := names_members_body options [] node
  have hfields : (m.fields.map Field.name).Nodup := Dart.nodup_names_fieldsAt [] _ node
  have hapart : ∀ f ∈ m.fields,
      f.name ∉ bodyMembers multipart ++ api.pathParams.map Dart.fieldName :=
    name_not_mem_of_mem_members options [] node
  refine ⟨hnames, ?_, hfields, hapart, ?_⟩
  · intro dateCall nameOf hplain
    exact ⟨_, readSignature_classText hplain, names_parameters m⟩
  · rw [hnames, List.nodup_append, List.nodup_append,
      List.nodup_map_iff_inj_on (nodup_pathParams api)]
    constructor
    · rintro ⟨⟨-, hparams, hfixed⟩, -, -⟩
      exact ⟨hparams, fun p hp hmem => hfixed _ hmem _ (List.mem_map_of_mem hp) rfl⟩
    · rintro ⟨hparams, hfixed⟩
      refine ⟨⟨nodup_bodyMembers multipart, hparams, ?_⟩, hfields, ?_⟩
      · rintro name hname other hother rfl
        obtain ⟨p, hp, rfl⟩ := List.mem_map.mp hother
        exact hfixed p hp hname
      · rintro name hname other hother rfl
        obtain ⟨f, hf, rfl⟩ := List.mem_map.mp hother
        exact hapart f hf hname

/-- A path with two spellings of one identifier. -/
def twoSpellings : Api := { name := "get_user", method := .get, path := "/users/:user_id/:userId" }

theorem clashing_parameters :
    ¬ (members .body { pathParams := twoSpellings.pathParams } [] []).names.Nodup := by
  have hnames : (members .body { pathParams := twoSpellings.pathParams } [] []).names =
      ["rawBody", "userId", "userId"] := rfl
  rw [hnames]
  decide

end DartScaffold.Model
