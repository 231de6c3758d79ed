import DartScaffold.Proofs.ClassName.Registry
import Mathlib.Data.List.DropRight

/-!
The search for the stem of a nested object. Its candidates form one endless sequence: the field name
alone, after more and more of its enclosing names, after the API's name and all of them, with the
suffix, after each Greek letter, and then with one number after the other. The search ends, and it ends
at the first of them that is free: names that are reserved or taken stop it once each at most.
-/

namespace DartScaffold.ClassName.Registry

/-- No name that the stem renders is reserved, or taken for the same artifact. -/
def Free (r : Registry) (stem : Stem) : Prop :=
  ∀ kind, r.render stem kind ∉ r.reserved ∧ r.render stem kind ∉ r.taken kind

/-- The `n` nearest enclosing names of a path, the outermost of them first. -/
def nearest (path : Path) (n : Nat) : String :=
  String.join ((path.dropLast.map Dart.classStem).rtake n)

/-- The candidates that have no number. -/
def named (r : Registry) (path : Path) (base : String) : List Stem :=
  let depth := path.dropLast.length
  [.bare base] ++
    (List.range depth).map (fun n => .bare (nearest path (n + 1) ++ base)) ++
    [.bare (r.apiStem ++ nearest path depth ++ base)] ++
    [.suffixed base] ++
    greekLetters.map fun letter => .bare (letter ++ base)

/-- The candidates in the order in which they are tried; the numbers begin with 2. -/
def candidateAt (r : Registry) (path : Path) (base : String) (n : Nat) : Stem :=
  let named := r.named path base
  named[n]?.getD (.bare (Text.numbered base (n - named.length + 2)))

/-! ### The sequence -/

theorem chain_eq (names : List String) (inner : String) :
    chain names inner =
      (List.range names.length).map fun n => String.join (names.take (n + 1)).reverse ++ inner := by
  induction names generalizing inner with
  | nil => rfl
  | cons name names ih =>
      rw [chain, ih, List.length_cons, List.range_succ_eq_map, List.map_cons, List.map_map]
      simp [Function.comp_def, String.append_assoc]

theorem nearest_eq (path : Path) (n : Nat) :
    nearest path n = String.join ((enclosing path).take n).reverse := by
  rw [nearest, enclosing, List.rtake_eq_reverse_take_reverse]

theorem chain_enclosing (path : Path) :
    chain (enclosing path) "" =
      (List.range path.dropLast.length).map fun n => nearest path (n + 1) := by
  rw [chain_eq]
  simp [nearest_eq, enclosing]

theorem candidates_eq (r : Registry) (path : Path) (base : String) :
    r.candidates path base = r.named path base := by
  have hwhole : ((chain (enclosing path) "").getLast?.getD "") =
      nearest path path.dropLast.length := by
    rw [chain_enclosing]
    cases hdepth : path.dropLast.length with
    | zero => simp [nearest]
    | succ depth => simp [List.range_succ]
  rw [candidates, named, hwhole, chain_enclosing, List.map_map]
  rfl

theorem candidateAt_of_lt {r : Registry} {path : Path} {base : String} {n : Nat}
    (h : n < (r.named path base).length) : r.candidateAt path base n = (r.named path base)[n] := by
  simp [candidateAt, h]

theorem candidateAt_add (r : Registry) (path : Path) (base : String) (n : Nat) :
    r.candidateAt path base ((r.named path base).length + n) =
      .bare (Text.numbered base (2 + n)) := by
  simp [candidateAt, Nat.add_comm]

/-! ### The end of the search -/

theorem not_free_iff {r : Registry} {stem : Stem} : ¬ r.Free stem ↔ r.isFree stem = false := by
  rw [Free, ← isFree_iff, Bool.not_eq_true]

/-- The stem of a nested object is the first candidate that is free, and the search for it ends: beside
the named candidates it tries as many numbers as there are names in the way at most. -/
theorem nestedStem_eq_firstFree (r : Registry) (path : Path) (name : String) :
    ∃ tries ≤ (r.named path (Dart.classStem name)).length + r.numberBound,
      r.nestedStem path name = r.candidateAt path (Dart.classStem name) tries ∧
        r.Free (r.candidateAt path (Dart.classStem name) tries) ∧
        ∀ n < tries, ¬ r.Free (r.candidateAt path (Dart.classStem name) n) := by
  have hfree : r.Free (r.nestedStem path name) := isFree_iff.mp (r.isFree_nestedStem path name)
  obtain ⟨base, hbase⟩ : ∃ base, base = Dart.classStem name := ⟨_, rfl⟩
  rw [← hbase]
  -- what is left to say is which candidate was taken, and that those before it are not free
  suffices ∃ tries ≤ (r.named path base).length + r.numberBound,
      r.nestedStem path name = r.candidateAt path base tries ∧
        ∀ n < tries, r.isFree (r.candidateAt path base n) = false by
    obtain ⟨tries, hbound, hstem, hbefore⟩ := this
    exact ⟨tries, hbound, hstem, hstem ▸ hfree, fun n hn => not_free_iff.mpr (hbefore n hn)⟩
  rw [nestedStem, ← hbase, candidates_eq]
  cases hfound : (r.named path base).find? r.isFree with
  | some stem =>
      obtain ⟨-, before, after, hsplit, hbefore⟩ := List.find?_eq_some_iff_append.mp hfound
      have hlength : before.length < (r.named path base).length := by simp [hsplit]
      refine ⟨before.length, by omega, ?_, fun n hn => ?_⟩
      · simp [candidateAt_of_lt hlength, hsplit]
      · rw [candidateAt_of_lt (by omega)]
        simpa [hsplit, List.getElem_append_left hn] using hbefore before[n] (List.getElem_mem hn)
  | none =>
      have hnamed := List.find?_eq_none.mp hfound
      obtain ⟨tries, hbound, hnumber, hbefore⟩ := Text.firstNumber_eq
        (fun n => r.isFree (.bare (Text.numbered base n))) r.numberBound 2
      refine ⟨(r.named path base).length + tries, by omega, ?_, fun n hn => ?_⟩
      · rw [candidateAt_add, Option.getD_none, numberedStem, hnumber]
      · by_cases hlt : n < (r.named path base).length
        · rw [candidateAt_of_lt hlt]
          simpa using hnamed _ (List.getElem_mem hlt)
        · obtain ⟨m, rfl⟩ := Nat.exists_eq_add_of_le (Nat.le_of_not_lt hlt)
          rw [candidateAt_add]
          exact hbefore m (by omega)

example : (List.range 6).map
    (({ api := "get_user" } : Registry).candidateAt ["data", "user", "address"] "Address") =
      [.bare "Address", .bare "UserAddress", .bare "DataUserAddress",
        .bare "GetUserDataUserAddress", .suffixed "Address", .bare "AlphaAddress"] := by
  decide +kernel

end DartScaffold.ClassName.Registry
