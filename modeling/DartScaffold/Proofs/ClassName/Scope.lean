import DartScaffold.ClassName.Scope
import DartScaffold.Proofs.Dart.Identifier
import DartScaffold.Proofs.Text.Numbered
import Mathlib.Data.List.Nodup

/-!
The mapper names of a page. A claim that was made stays, no name has two owners, and every name is a
legal one if the names that were asked for are.
-/

namespace DartScaffold.ClassName.Scope

open Dart (IsTypeName)

structure Safe (scope : Scope) : Prop where
  distinct : scope.names.Nodup
  legal : ∀ name ∈ scope.names, IsTypeName name

/-- `scope'` has the claims of `scope` and maybe more. -/
def Extends (scope scope' : Scope) : Prop :=
  scope.claims <+: scope'.claims

variable {scope scope' : Scope} {owner : Owner} {name : String}

theorem Extends.refl (scope : Scope) : scope.Extends scope :=
  List.prefix_refl _

theorem Extends.trans {scope'' : Scope} (h : scope.Extends scope')
    (h' : scope'.Extends scope'') : scope.Extends scope'' :=
  List.IsPrefix.trans h h'

theorem Extends.lookup (h : scope.Extends scope') (hname : scope.claims.lookup owner = some name) :
    scope'.claims.lookup owner = some name := by
  obtain ⟨more, hmore⟩ := h
  rw [← hmore, List.lookup_append, hname]
  rfl

theorem mem_of_lookup (h : scope.claims.lookup owner = some name) :
    (owner, name) ∈ scope.claims := by
  obtain ⟨pre, post, hsplit, -⟩ := List.lookup_eq_some_iff.mp h
  rw [hsplit]
  simp

theorem extends_claim (scope : Scope) (owner : Owner) (candidate : String) :
    scope.Extends (scope.claim owner candidate).2 := by
  rw [claim]
  split
  · exact Extends.refl scope
  · exact List.prefix_append _ _

/-- A claim holds from then on. -/
theorem lookup_claim (scope : Scope) (owner : Owner) (candidate : String) :
    (scope.claim owner candidate).2.claims.lookup owner =
      some (scope.claim owner candidate).1 := by
  rw [claim]
  split
  · rename_i name hname
    exact hname
  · rename_i hnone
    simp [List.lookup_append, hnone]

/-- A new name is one that nobody has. -/
theorem nodup_claim (h : scope.names.Nodup) (owner : Owner) (candidate : String) :
    (scope.claim owner candidate).2.names.Nodup := by
  rw [claim]
  split
  · exact h
  · have hnodup := List.Nodup.concat (Text.unusedName_not_mem candidate scope.names) h
    rw [List.concat_eq_append] at hnodup
    simpa [names] using hnodup

theorem Safe.claim (h : scope.Safe) (owner : Owner) {candidate : String}
    (hcandidate : IsTypeName candidate) : (scope.claim owner candidate).2.Safe := by
  refine ⟨nodup_claim h.distinct owner candidate, ?_⟩
  rw [Scope.claim]
  split
  · exact h.legal
  · obtain ⟨tail, htail, hname⟩ := Text.unusedName_eq candidate scope.names
    intro name hmem
    simp only [names, List.map_append, List.map_singleton, List.mem_append,
      List.mem_singleton] at hmem
    rcases hmem with hmem | rfl
    · exact h.legal name hmem
    · change IsTypeName (Text.unusedName candidate scope.names)
      rw [hname]
      exact hcandidate.append fun c hc => by simp [Char.isAlphanum, htail c hc]

theorem safe_ofApis (apis : List String) : (ofApis apis).Safe := by
  rw [ofApis]
  have hempty : Safe {} := ⟨List.nodup_nil, by simp [names]⟩
  generalize ({} : Scope) = scope at hempty
  induction apis generalizing scope with
  | nil => exact hempty
  | cons api apis ih => exact ih _ (hempty.claim _ (Dart.isTypeName_classStem api))

/-- Different owners have different names. -/
theorem name_ne_of_nodup (h : scope.names.Nodup) {other : Owner} {name' : String}
    (hname : scope.claims.lookup owner = some name)
    (hname' : scope.claims.lookup other = some name') (hne : owner ≠ other) : name ≠ name' := by
  intro heq
  have hsame := List.inj_on_of_nodup_map h (mem_of_lookup hname) (mem_of_lookup hname') heq
  exact hne (congrArg Prod.fst hsame)

theorem Safe.name_ne (h : scope.Safe) {other : Owner} {name' : String}
    (hname : scope.claims.lookup owner = some name)
    (hname' : scope.claims.lookup other = some name') (hne : owner ≠ other) : name ≠ name' :=
  name_ne_of_nodup h.distinct hname hname' hne

/-- Every API of the page has a name for its whole sample before anything is asked. -/
theorem lookup_ofApis {apis : List String} {api : String} (h : api ∈ apis) :
    ∃ name, (ofApis apis).claims.lookup (api, []) = some name := by
  rw [ofApis]
  generalize ({} : Scope) = scope
  induction apis generalizing scope with
  | nil => simp at h
  | cons first apis ih =>
      rcases List.mem_cons.mp h with rfl | hrest
      · have hgrows : ∀ apis : List String, ∀ start : Scope, start.Extends
            (apis.foldl (fun scope api => (scope.claim (api, []) (Dart.classStem api)).2) start) :=
          fun apis start => List.foldlRecOn apis _ (.refl start) fun _ hsofar _ _ =>
            hsofar.trans (extends_claim _ _ _)
        exact ⟨_, (hgrows apis _).lookup (lookup_claim scope (api, []) (Dart.classStem api))⟩
      · exact ih hrest _

end DartScaffold.ClassName.Scope
