import DartScaffold.Json.Basic
import DartScaffold.Shape.Basic
import DartScaffold.Shape.DateText

/-!
The shape of one sample value. A list takes its element shape from its first element alone. The
shape is found by calls that are open inside one another, of which there can be too many.
-/

namespace DartScaffold.Shape

mutual

def infer : Json → Shape
  | .null => scalar .dynamic
  | .bool _ => scalar .bool
  | .int _ => scalar .int
  | .float _ => scalar .double
  | .str s => scalar (if isDateText s then .datetime else .string)
  | .arr [] => list (scalar .dynamic)
  | .arr (item :: _) => list (infer item)
  | .obj entries => object (inferFields entries)

def inferFields : List (String × Json) → List (String × Shape)
  | [] => []
  | (key, value) :: rest => (key, infer value) :: inferFields rest

end

mutual

/-- So many calls are open at once while the shape of a value is found: two for an object and one for
a list, beside those for what is inside it. Any object or list is first asked what it is, which takes
four. -/
def callsFor : Json → Nat
  | .str _ => 2
  | .arr [] => 4
  | .arr (item :: _) => max 4 (1 + callsFor item)
  | .obj entries => max 4 (2 + callsForAll entries)
  | _ => 1

def callsForAll : List (String × Json) → Nat
  | [] => 0
  | (_, value) :: rest => max (callsFor value) (callsForAll rest)

end

/-- So many calls are left for finding a shape, of the thousand that may be open at once: the thread of
a unit and the unit itself have the others. -/
def callLimit : Nat := 987

end DartScaffold.Shape
