/-!
Numbered names: a name that is taken gets the first free number from 2 on. The search tries as
many numbers as there are taken names, so it never stops at a taken one.
-/

namespace DartScaffold.Text

/-- The first number from `start` on that satisfies `free`; `fuel` numbers are tested. -/
def firstNumber (free : Nat → Bool) : Nat → Nat → Nat
  | 0, start => start
  | fuel + 1, start => if free start then start else firstNumber free fuel (start + 1)

def numbered (base : String) (n : Nat) : String :=
  base ++ toString n

def unusedName (base : String) (used : List String) : String :=
  if used.contains base then
    numbered base (firstNumber (fun n => !used.contains (numbered base n)) used.length 2)
  else base

end DartScaffold.Text
