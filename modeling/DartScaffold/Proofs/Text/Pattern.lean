/-!
Patterns that are matched with backtracking. A pattern lists the lengths it can take at the beginning of
a text in the order in which they are tried; the first of them is the match. A text is searched from left
to right, and the search goes on after each match.
-/

namespace DartScaffold.Text

/-- The lengths that a pattern can take at the beginning of a text, the preferred one first. -/
abbrev Pattern := List Char → List Nat

namespace Pattern

def one (p : Char → Bool) : Pattern
  | c :: _ => if p c then [1] else []
  | [] => []

/-- One character of the class or more, as many as possible. -/
def many (p : Char → Bool) : Pattern
  | c :: rest => if p c then (many p rest).map (· + 1) ++ [1] else []
  | [] => []

def opt (a : Pattern) : Pattern :=
  fun s => a s ++ [0]

def alt (a b : Pattern) : Pattern :=
  fun s => a s ++ b s

def seq (a b : Pattern) : Pattern :=
  fun s => (a s).flatMap fun n => (b (s.drop n)).map (n + ·)

/-- What follows has to match, and is not taken. -/
def ahead (a : Pattern) : Pattern :=
  fun s => if (a s).isEmpty then [] else [0]

section Head

variable {p : Char → Bool} {a b : Pattern} {c : Char} {s : List Char}

@[simp] theorem one_cons (p : Char → Bool) (c : Char) (s : List Char) :
    one p (c :: s) = if p c then [1] else [] :=
  rfl

theorem many_cons_of_neg (hc : p c = false) (s : List Char) : many p (c :: s) = [] := by
  simp [many, hc]

theorem head?_alt : (alt a b s).head? = (a s).head?.or (b s).head? :=
  List.head?_append

/-- One more character of the class is tried before what follows the class. -/
theorem head?_seq_many_cons (hc : p c = true) (b : Pattern) (s : List Char) :
    (seq (many p) b (c :: s)).head? =
      ((seq (many p) b s).head?.map (· + 1)).or ((b s).head?.map (· + 1)) := by
  have hmore : ((many p s).map (· + 1)).flatMap (fun n => (b ((c :: s).drop n)).map (n + ·)) =
      (seq (many p) b s).map (· + 1) := by
    simp [seq, List.map_flatMap, List.flatMap_map, Function.comp_def, Nat.add_right_comm]
  simp [seq, many, hc, List.flatMap_append, hmore, Nat.add_comm]

theorem seq_many_cons_of_neg (hc : p c = false) (b : Pattern) (s : List Char) :
    seq (many p) b (c :: s) = [] := by
  rw [seq, many_cons_of_neg hc, List.flatMap_nil]

end Head

end Pattern

/-- The matches in a text and the characters between them; the first `skip` characters belong to the
match before the text. No pattern here matches without taking a character. -/
def scan (a : Pattern) : Nat → List Char → List (List Char ⊕ Char)
  | _, [] => []
  | skip + 1, _ :: rest => scan a skip rest
  | 0, c :: rest =>
    match (a (c :: rest)).head? with
    | some (n + 1) => .inl (c :: rest.take n) :: scan a n rest
    | _ => .inr c :: scan a 0 rest

def findAll (a : Pattern) (s : List Char) : List (List Char) :=
  (scan a 0 s).flatMap (Sum.elim (fun word => [word]) fun _ => [])

def replaceAll (a : Pattern) (f : List Char → List Char) (s : List Char) : List Char :=
  (scan a 0 s).flatMap (Sum.elim f fun c => [c])

/-- What is made of the matches and of the characters between them, if it satisfies the equations of the
search. -/
theorem flatMap_scan {β : Type} {a : Pattern} {emit : List Char ⊕ Char → List β}
    {result : List Char → List β} (hnil : result [] = [])
    (hmatch : ∀ c rest n, (a (c :: rest)).head? = some (n + 1) →
      result (c :: rest) = emit (.inl (c :: rest.take n)) ++ result (rest.drop n))
    (hskip : ∀ c rest, (∀ n, (a (c :: rest)).head? ≠ some (n + 1)) →
      result (c :: rest) = emit (.inr c) ++ result rest) (skip : Nat) (s : List Char) :
    (scan a skip s).flatMap emit = result (s.drop skip) := by
  fun_induction scan a skip s with
  | case1 skip => simp [hnil]
  | case2 skip c rest ih => exact ih
  | case3 c rest n h ih => rw [List.flatMap_cons, ih, List.drop_zero, hmatch c rest n h]
  | case4 c rest h ih => rw [List.flatMap_cons, ih, List.drop_zero, List.drop_zero, hskip c rest h]

end DartScaffold.Text
