import DartScaffold.Proofs.Aggregate.Edit

/-!
What pruning takes out of a document. `Pruned` goes along the nodes with the number of removed blocks
whose blank line may still go; a node that stays sets it back, so a blank line goes only where nothing
but removed nodes stands between it and a block of its own. One pass over the nodes is such a removal,
and removals compose, so that the passes for all stale APIs are one.
-/

namespace DartScaffold.Aggregate

namespace Document

/-! ### Imports of model files -/

/-- The line has the end of the location of a model file that is named after the API. -/
def NamesModel (api line : String) : Prop :=
  ∃ start ∈ ["/", "'"], ∃ stem ∈ [api, Text.snakeCase api],
    ∃ kind ∈ ["body", "response", "entity", "extra"],
      (start ++ stem ++ "_" ++ kind ++ ".dart'").toList <:+: line.toList

theorem occursIn_iff {pattern s : List Char} : occursIn pattern s = true ↔ pattern <:+: s := by
  induction s with
  | nil => simp [occursIn, List.infix_nil]
  | cons c s ih =>
      rw [occursIn, Bool.or_eq_true, ih, List.isPrefixOf_iff_prefix, List.infix_cons_iff]

theorem importsModelOf_iff {api line : String} :
    importsModelOf api line = true ↔ NamesModel api line := by
  simp only [importsModelOf, modelFileEnds, List.any_eq_true, List.mem_flatMap, List.mem_map,
    occursIn_iff, NamesModel]
  constructor
  · rintro ⟨-, ⟨start, hstart, stem, hstem, kind, hkind, rfl⟩, hline⟩
    exact ⟨start, hstart, stem, hstem, kind, hkind, hline⟩
  · rintro ⟨start, hstart, stem, hstem, kind, hkind, hline⟩
    exact ⟨_, ⟨start, hstart, stem, hstem, kind, hkind, rfl⟩, hline⟩

/-! ### Removals -/

/-- `e` is `d` without the blocks of `stale`, blank lines after them and imports of their models. Up to
`n` blank lines may go before the next block. -/
inductive Pruned (stale : List String) : Nat → Document → Document → Prop where
  | nil (n : Nat) : Pruned stale n [] []
  | block {n : Nat} {key : BlockKey} {first last : String} {body : List String} {d e : Document}
      (hkey : key.api ∈ stale) (h : Pruned stale (n + 1) d e) :
      Pruned stale n (.block key first body last :: d) e
  | blank {n : Nat} {d e : Document} (h : Pruned stale n d e) :
      Pruned stale (n + 1) (.text "" :: d) e
  | directive {n : Nat} {line api : String} {d e : Document} (hapi : api ∈ stale)
      (hline : NamesModel api line) (h : Pruned stale n d e) :
      Pruned stale n (.directive line :: d) e
  | kept {n : Nat} {node : Node} {d e : Document} (hnode : ∀ api ∈ stale, node.isBlockOf api = false)
      (h : Pruned stale 0 d e) : Pruned stale n (node :: d) (node :: e)

section Pruned

variable {stale more : List String} {n m : Nat} {d e e' : Document} {key : BlockKey}

theorem Pruned.mono (h : Pruned stale n d e) (hnm : n ≤ m) : Pruned stale m d e := by
  induction h generalizing m with
  | nil => exact .nil m
  | block hkey _ ih => exact .block hkey (ih (Nat.succ_le_succ hnm))
  | blank _ ih =>
      obtain ⟨k, rfl⟩ := Nat.exists_eq_add_of_lt hnm
      exact .blank (ih (Nat.le_add_right _ k))
  | directive hapi hline _ ih => exact .directive hapi hline (ih hnm)
  | kept hnode h _ => exact .kept hnode h

/-- The blank lines that the first removal leaves to its blocks are left by the second. -/
theorem Pruned.trans (h : Pruned stale n d e) (h' : Pruned more m e e') :
    Pruned (stale ++ more) (n + m) d e' := by
  induction h generalizing m e' with
  | nil =>
      cases h'
      exact .nil _
  | @block n key first last body d e hkey _ ih =>
      refine .block (List.mem_append_left _ hkey) ((ih h').mono ?_)
      omega
  | @blank n d e _ ih =>
      have hrest := ih h'
      rw [Nat.add_right_comm]
      exact .blank hrest
  | directive hapi hline _ ih => exact .directive (List.mem_append_left _ hapi) hline (ih h')
  | @kept n node d e hnode _ ih =>
      cases h' with
      | block hkey h' =>
          refine .block (List.mem_append_right _ hkey) ((ih h').mono ?_)
          omega
      | blank h' => exact .blank ((ih h').mono (Nat.zero_add _ ▸ Nat.le_add_left _ n))
      | directive hapi hline h' =>
          exact .directive (List.mem_append_right _ hapi) hline ((ih h').mono (by omega))
      | kept hnode' h' => exact .kept (List.forall_mem_append.mpr ⟨hnode, hnode'⟩) (ih h')

theorem Pruned.refl (d : Document) : Pruned [] 0 d d := by
  induction d with
  | nil => exact .nil 0
  | cons node d ih => exact .kept (by simp) ih

theorem pruned_dropApi (api : String) (afterBlock : Bool) (d : Document) :
    Pruned [api] afterBlock.toNat d (dropApi api afterBlock d) := by
  induction d generalizing afterBlock with
  | nil => exact .nil _
  | cons node d ih =>
      have hkept : node.isBlockOf api = false →
          Pruned [api] afterBlock.toNat (node :: d) (node :: dropApi api false d) :=
        fun hnode => .kept (by simpa using hnode) (ih false)
      rw [dropApi.eq_def]
      dsimp only
      split
      · rename_i hblock
        cases node with
        | block key first body last =>
            have hkey : key.api ∈ [api] := by simpa [Node.isBlockOf] using hblock
            exact .block hkey ((ih true).mono (Nat.le_add_left _ _))
        | _ => contradiction
      · rename_i hblock
        have hnode : node.isBlockOf api = false := by simpa using hblock
        split
        · rename_i htext
          obtain ⟨rfl, hblank⟩ := Bool.and_eq_true_iff.mp htext
          obtain rfl := eq_of_beq hblank
          exact .blank (ih false)
        · split
          · split
            · rename_i himports
              exact .directive (List.mem_singleton_self api) (importsModelOf_iff.mp himports)
                ((ih false).mono (Nat.zero_le _))
            · exact hkept hnode
          · exact hkept hnode

theorem pruned_prune (d : Document) (keep : List String) :
    Pruned (d.stale keep) 0 d (d.prune keep) := by
  rw [prune]
  generalize d.stale keep = stale
  induction stale generalizing d with
  | nil => exact .refl d
  | cons api stale ih => exact (pruned_dropApi api false d).trans (ih (dropApi api false d))

/-! ### What removals leave -/

theorem Pruned.sublist (h : Pruned stale n d e) : e.Sublist d := by
  induction h with
  | nil => exact .slnil
  | block _ _ ih => exact ih.cons _
  | blank _ ih => exact ih.cons _
  | directive _ _ _ ih => exact ih.cons _
  | kept _ _ ih => exact ih.cons_cons _

theorem prune_sublist (d : Document) (keep : List String) : (d.prune keep).Sublist d :=
  (pruned_prune d keep).sublist

/-- A view of the nodes that shows nothing of what is removed shows the same afterwards. -/
theorem Pruned.filter {p : Node → Bool} (h : Pruned stale n d e) (hblank : p (.text "") = false)
    (hdirective : ∀ line, p (.directive line) = false)
    (hstale : ∀ node, p node = true → ∀ api ∈ stale, node.isBlockOf api = false) :
    e.filter p = d.filter p := by
  induction h with
  | nil => rfl
  | @block n key first last body d e hkey _ ih =>
      have hnode : p (.block key first body last) = false := by
        by_contra hne
        have hother := hstale _ (by simpa using hne) key.api hkey
        simp [Node.isBlockOf] at hother
      rw [ih, List.filter_cons_of_neg (by simp [hnode])]
  | blank _ ih => rw [ih, List.filter_cons_of_neg (by simp [hblank])]
  | directive _ _ _ ih => rw [ih, List.filter_cons_of_neg (by simp [hdirective])]
  | kept _ _ ih => rw [List.filter_cons, List.filter_cons, ih]

theorem Pruned.not_stale (h : Pruned stale n d e) :
    ∀ node ∈ e, ∀ api ∈ stale, node.isBlockOf api = false := by
  induction h with
  | nil => simp
  | block _ _ ih => exact ih
  | blank _ ih => exact ih
  | directive _ _ _ ih => exact ih
  | kept hnode _ ih => exact List.forall_mem_cons.mpr ⟨hnode, ih⟩

end Pruned

end Document

end DartScaffold.Aggregate
