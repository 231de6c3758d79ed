import DartScaffold.Text.Numbered
import Mathlib.Data.List.Nodup
import Mathlib.Data.List.Perm.Subperm
import Std.Data.String.ToNat

/-!
The search for a number ends at a free one. Whatever stands in the way blocks one number at most, so
among as many numbers as there are obstacles, and one more, there is a free one.
-/

namespace DartScaffold.Text

theorem numbered_inj {base : String} {m n : Nat} (h : numbered base m = numbered base n) :
    m = n := by
  have hlists := congrArg String.toList h
  simp only [numbered, String.toList_append, List.append_cancel_left_eq] at hlists
  exact Nat.repr_injective (String.toList_inj.mp hlists)

theorem isDigit_of_mem_toString {n : Nat} {c : Char} (h : c ∈ (toString n).toList) :
    c.isDigit = true := by
  rw [Nat.toString_eq_repr, Nat.toList_repr] at h
  exact Nat.isDigit_of_mem_toDigits (by decide) (by decide) h

theorem free_firstNumber {β : Type} {blocks : β → Nat → Prop} {free : Nat → Bool}
    (honce : ∀ b m n, blocks b m → blocks b n → m = n) (blockers : List β) {start : Nat}
    (hfree : ∀ n, start ≤ n → (∀ b ∈ blockers, ¬ blocks b n) → free n = true) :
    free (firstNumber free blockers.length start) = true := by
  induction hfuel : blockers.length generalizing start blockers with
  | zero =>
      obtain rfl := List.length_eq_zero_iff.mp hfuel
      exact hfree start (Nat.le_refl start) (by simp)
  | succ fuel ih =>
      rw [firstNumber]
      by_cases hstart : free start = true
      · rw [if_pos hstart]
        exact hstart
      · rw [if_neg hstart]
        -- what blocks `start` is out of the way of all later numbers
        have hblocked : ∃ b ∈ blockers, blocks b start := by
          apply Classical.byContradiction
          intro hnone
          exact hstart (hfree start (Nat.le_refl start) (by simpa using hnone))
        obtain ⟨b, hb, hbstart⟩ := hblocked
        obtain ⟨pre, post, rfl⟩ := List.append_of_mem hb
        refine ih (pre ++ post) ?_ (by simp at hfuel ⊢; omega)
        intro n hn hothers
        refine hfree n (by omega) fun other hother => ?_
        simp only [List.mem_append, List.mem_cons] at hother hothers
        rcases hother with hother | rfl | hother
        · exact hothers other (.inl hother)
        · intro hblocks
          have hsame := honce other start n hbstart hblocks
          omega
        · exact hothers other (.inr hother)

theorem unusedName_not_mem (base : String) (used : List String) : unusedName base used ∉ used := by
  rw [unusedName]
  by_cases hused : used.contains base = true
  · have honce : ∀ name m n, numbered base m = name → numbered base n = name → m = n := by
      rintro name m n rfl h
      exact (numbered_inj h).symm
    have hfree : ∀ n, 2 ≤ n → (∀ name ∈ used, numbered base n ≠ name) →
        (!used.contains (numbered base n)) = true := by
      intro n _ hnone
      simpa using fun h => hnone _ h rfl
    have hfound := free_firstNumber honce used hfree
    rw [if_pos hused]
    simpa using hfound
  · rw [if_neg hused]
    simpa using hused

/-! ### The names that are tried -/

/-- The name alone, then the name with the numbers from 2 on. -/
def candidate (base : String) : Nat → String
  | 0 => base
  | n + 1 => numbered base (n + 2)

theorem toList_toString_ne_nil (n : Nat) : (toString n).toList ≠ [] := by
  rw [Nat.toString_eq_repr, Nat.toList_repr]
  exact Nat.toDigits_ne_nil

theorem numbered_ne (base : String) (n : Nat) : numbered base n ≠ base := by
  intro h
  have hdigits : (toString n).toList = [] := by
    simpa [numbered] using congrArg String.toList h
  exact toList_toString_ne_nil n hdigits

theorem getLast?_numbered (base : String) (n : Nat) :
    (numbered base n).toList.getLast?.any Char.isDigit = true := by
  have hne := toList_toString_ne_nil n
  rw [numbered, String.toList_append, List.getLast?_append_of_ne_nil _ hne,
    List.getLast?_eq_some_getLast hne]
  exact isDigit_of_mem_toString (List.getLast_mem hne)

theorem candidate_inj {base : String} {m n : Nat} (h : candidate base m = candidate base n) :
    m = n := by
  cases m with
  | zero =>
      cases n with
      | zero => rfl
      | succ n => exact absurd h.symm (numbered_ne base _)
  | succ m =>
      cases n with
      | zero => exact absurd h (numbered_ne base _)
      | succ n =>
          have hnumber := numbered_inj h
          omega

/-- The search passes over used names only, and over as many as it has fuel for at most. -/
theorem firstNumber_eq (free : Nat → Bool) (fuel start : Nat) :
    ∃ tries ≤ fuel, firstNumber free fuel start = start + tries ∧
      ∀ n < tries, free (start + n) = false := by
  induction fuel generalizing start with
  | zero => exact ⟨0, Nat.le_refl 0, rfl, by simp⟩
  | succ fuel ih =>
      rw [firstNumber]
      by_cases hstart : free start = true
      · exact ⟨0, Nat.zero_le _, by simp [hstart], by simp⟩
      · obtain ⟨tries, hbound, hfound, hbefore⟩ := ih (start + 1)
        refine ⟨tries + 1, Nat.succ_le_succ hbound, by rw [if_neg hstart, hfound]; omega,
          fun n hn => ?_⟩
        cases n with
        | zero => simpa using hstart
        | succ n =>
            have hlater := hbefore n (by omega)
            rwa [Nat.add_assoc, Nat.add_comm 1 n] at hlater

/-- `name` is where the search ends: the first candidate that is not used, after as many tries as
there are used names at most. -/
def IsFirstUnused (base : String) (used : List String) (name : String) : Prop :=
  ∃ tries ≤ used.length, name = candidate base tries ∧ name ∉ used ∧
    ∀ n < tries, candidate base n ∈ used

theorem isFirstUnused_unusedName (base : String) (used : List String) :
    IsFirstUnused base used (unusedName base used) := by
  obtain ⟨tries, hname, hbefore⟩ : ∃ tries, unusedName base used = candidate base tries ∧
      ∀ n < tries, candidate base n ∈ used := by
    rw [unusedName]
    by_cases hused : used.contains base = true
    · obtain ⟨tries, -, hfound, hbefore⟩ :=
        firstNumber_eq (fun n => !used.contains (numbered base n)) used.length 2
      refine ⟨tries + 1, by rw [if_pos hused, hfound, Nat.add_comm 2 tries]; rfl, fun n hn => ?_⟩
      cases n with
      | zero => simpa [candidate] using hused
      | succ n =>
          have htaken := hbefore n (by omega)
          rw [Nat.add_comm 2 n] at htaken
          simpa [candidate] using htaken
    · exact ⟨0, by rw [if_neg hused]; rfl, by simp⟩
  -- the candidates before are distinct, and all of them are used
  have hnodup : ((List.range tries).map (candidate base)).Nodup :=
    List.Nodup.map (fun _ _ => candidate_inj) List.nodup_range
  have hsubset : (List.range tries).map (candidate base) ⊆ used := by
    intro name hmem
    obtain ⟨n, hn, rfl⟩ := List.mem_map.mp hmem
    exact hbefore n (List.mem_range.mp hn)
  have hlength := (List.subperm_of_subset hnodup hsubset).length_le
  rw [List.length_map, List.length_range] at hlength
  exact ⟨tries, hlength, hname, unusedName_not_mem base used, hbefore⟩

/-- In which order the names were used does not matter. -/
theorem IsFirstUnused.perm {base name : String} {used other : List String}
    (h : IsFirstUnused base used name) (hperm : used.Perm other) : IsFirstUnused base other name := by
  obtain ⟨tries, hbound, hname, hfresh, hbefore⟩ := h
  exact ⟨tries, hperm.length_eq ▸ hbound, hname, fun hmem => hfresh (hperm.mem_iff.mpr hmem),
    fun n hn => hperm.mem_iff.mp (hbefore n hn)⟩

/-- A name that is free is taken as it is. -/
theorem IsFirstUnused.eq_base {base name : String} {used : List String}
    (h : IsFirstUnused base used name) (hfree : base ∉ used) : name = base := by
  obtain ⟨tries, -, rfl, -, hbefore⟩ := h
  cases tries with
  | zero => rfl
  | succ tries => exact absurd (hbefore 0 (by omega)) hfree

/-- A name that gets a number keeps its beginning. -/
theorem unusedName_eq (base : String) (used : List String) :
    ∃ tail : String, (∀ c ∈ tail.toList, c.isDigit = true) ∧
      unusedName base used = base ++ tail := by
  rw [unusedName]
  split
  · exact ⟨_, fun _ => isDigit_of_mem_toString, rfl⟩
  · exact ⟨"", by simp, by simp⟩

end DartScaffold.Text
