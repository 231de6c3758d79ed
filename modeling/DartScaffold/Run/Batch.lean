import DartScaffold.Decimal.Binary64

/-!
How many features are generated at a time.
-/

namespace DartScaffold.Run

/-- So many quarters of the processors, rounded up. The share is taken in floating-point numbers,
and there is none of more processors than they reach. -/
def share? (quarters : Nat) (cpus : Int) : Option Int :=
  ((Binary64.ofInt cpus).scale quarters 4).ceil?

/-- More features at once for longer runs and more processors, and never less than one. -/
def sizeOn? (cpus count : Int) : Option Int :=
  if 100 < count then some (max 10 (2 * cpus))
  else if 50 < count then some (max 5 cpus)
  else if 10 < count then (share? 3 cpus).map (max 3)
  else (share? 2 cpus).map (max 1)

/-- The processors that are counted on: as many as are given, or else as the machine says it has, or
else one. Zero is as good as nothing. -/
def processorsOf (given : Option Int) (machine : Option Nat) : Int :=
  (given.filter (· != 0) <|> (machine.filter (· != 0)).map Int.ofNat).getD 1

/-- How many of `count` features are generated at a time. -/
def batchSize? (count : Int) (given : Option Int) (machine : Option Nat) : Option Int :=
  sizeOn? (processorsOf given machine) count

/-- The list in parts of `size` elements, the last of which may be shorter. No part is empty. -/
def batches {α : Type} (size : Nat) : List α → List (List α)
  | [] => []
  | job :: rest => (job :: rest.take (size - 1)) :: batches size (rest.drop (size - 1))
termination_by jobs => jobs.length
decreasing_by simp only [List.length_drop, List.length_cons]; omega

end DartScaffold.Run
