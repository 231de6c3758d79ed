import DartScaffold.Text.Blank
import DartScaffold.Proofs.Text.Span
import Mathlib.Data.List.DropRight

/-!
What stripping leaves and what collapsing runs of blanks leaves: a text that neither begins nor ends
with a blank, and one whose blanks are single spaces.
-/

namespace DartScaffold.Text

/-! ### Ends of a text -/

theorem dropWhileEnd_prefix {α : Type} (p : α → Bool) (s : List α) : dropWhileEnd p s <+: s :=
  List.rdropWhile_prefix p s

theorem dropWhileEnd_eq_self {α : Type} {p : α → Bool} {s : List α}
    (h : ∀ a ∈ s.getLast?, p a = false) : dropWhileEnd p s = s := by
  refine List.rdropWhile_eq_self_iff.mpr fun hne => ?_
  simp [h _ (List.getLast?_eq_some_getLast hne)]

theorem of_mem_getLast?_dropWhileEnd {α : Type} {p : α → Bool} {s : List α} {a : α}
    (h : a ∈ (dropWhileEnd p s).getLast?) : p a = false := by
  rw [dropWhileEnd, List.getLast?_reverse] at h
  exact of_mem_head?_dropWhile h

theorem of_mem_head?_strip {s : List Char} {c : Char} (h : c ∈ (strip s).head?) :
    isBlank c = false := by
  obtain ⟨rest, hrest⟩ := dropWhileEnd_prefix isBlank (s.dropWhile isBlank)
  apply of_mem_head?_dropWhile (s := s)
  rw [← hrest, List.head?_append]
  change c ∈ ((strip s).head?.or rest.head?)
  rw [Option.mem_def.mp h]
  rfl

theorem of_mem_getLast?_strip {s : List Char} {c : Char} (h : c ∈ (strip s).getLast?) :
    isBlank c = false :=
  of_mem_getLast?_dropWhileEnd h

theorem strip_eq_self {s : List Char} (hhead : ∀ c ∈ s.head?, isBlank c = false)
    (hlast : ∀ c ∈ s.getLast?, isBlank c = false) : strip s = s := by
  have hdrop : s.dropWhile isBlank = s :=
    dropWhile_append_stop (s := []) (by simp) hhead
  rw [strip, hdrop, dropWhileEnd_eq_self hlast]

/-! ### Single spaces -/

/-- Every blank is a space with a character after it that is neither a blank nor in `stop`. -/
inductive Spaced (stop : List Char) : List Char → Prop where
  | nil : Spaced stop []
  | dark {c : Char} {s : List Char} (hc : isBlank c = false) (h : Spaced stop s) :
      Spaced stop (c :: s)
  | space {d : Char} {s : List Char} (hd : isBlank d = false) (hstop : d ∉ stop)
      (h : Spaced stop (d :: s)) : Spaced stop (' ' :: d :: s)

namespace Spaced

variable {stop : List Char}

theorem tail {c : Char} {rest : List Char} (h : Spaced stop (c :: rest)) : Spaced stop rest := by
  cases h <;> assumption

/-- What a blank is and what follows it. -/
theorem of_blank {c : Char} {rest : List Char} (h : Spaced stop (c :: rest))
    (hc : isBlank c = true) : c = ' ' ∧ ∃ d more, rest = d :: more ∧ isBlank d = false ∧ d ∉ stop := by
  cases h with
  | dark hdark => simp [hc] at hdark
  | space hd hstop => exact ⟨rfl, _, _, rfl, hd, hstop⟩

theorem eq_space {s : List Char} {c : Char} (h : Spaced stop s) (hmem : c ∈ s)
    (hc : isBlank c = true) : c = ' ' := by
  induction h with
  | nil => simp at hmem
  | dark hd _ ih =>
      rcases List.mem_cons.mp hmem with rfl | hmem
      · simp [hc] at hd
      · exact ih hmem
  | space _ _ _ ih =>
      rcases List.mem_cons.mp hmem with rfl | hmem
      · rfl
      · exact ih hmem

theorem getLast? {s : List Char} (h : Spaced stop s) :
    ∀ c ∈ s.getLast?, isBlank c = false := by
  induction h with
  | nil => simp
  | @dark c s hc h ih =>
      cases s with
      | nil => simpa using hc
      | cons d s => simpa using ih
  | space hd _ h ih => simpa using ih

end Spaced

theorem head?_collapseBlanks {s : List Char} (h : ∀ c ∈ s.head?, isBlank c = false) :
    (collapseBlanks s).head? = s.head? := by
  cases s with
  | nil => rfl
  | cons c rest => simp [collapseBlanks, h c rfl]

theorem spaced_collapseBlanks {s : List Char} (h : ∀ c ∈ s.getLast?, isBlank c = false) :
    Spaced [] (collapseBlanks s) := by
  fun_induction collapseBlanks s with
  | case1 => exact .nil
  | case2 c hc => simp [hc] at h
  | case3 c hc d rest hd ih => exact ih (by simpa using h)
  | case4 c hc d rest hd ih =>
      have hcollapse := ih (by simpa using h)
      rw [show collapseBlanks (d :: rest) = d :: collapseBlanks rest by
        simp [collapseBlanks, hd]] at hcollapse ⊢
      exact .space (by simpa using hd) (by simp) hcollapse
  | case5 c rest hc ih =>
      refine .dark (by simpa using hc) (ih ?_)
      cases rest with
      | nil => simp
      | cons d rest => simpa using h

theorem collapseBlanks_eq_self {stop s : List Char} (h : Spaced stop s) :
    collapseBlanks s = s := by
  fun_induction collapseBlanks s with
  | case1 => rfl
  | case2 c hc =>
      obtain ⟨-, d, more, hrest, -⟩ := h.of_blank hc
      contradiction
  | case3 c hc d rest hd ih =>
      obtain ⟨-, e, more, hrest, he, -⟩ := h.of_blank hc
      simp_all
  | case4 c hc d rest hd ih => rw [ih h.tail, (h.of_blank hc).1]
  | case5 c rest hc ih => rw [ih h.tail]

theorem mem_collapseBlanks {s : List Char} {c : Char} (h : c ∈ collapseBlanks s) :
    c = ' ' ∨ c ∈ s := by
  fun_induction collapseBlanks s with grind

end DartScaffold.Text
