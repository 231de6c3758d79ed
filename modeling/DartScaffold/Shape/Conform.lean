import DartScaffold.Shape.Infer

/-!
What a value keeps when it is read as a given shape: an object has exactly the fields of the
shape, a part of another shape is null, and such elements of a list are left out.
-/

namespace DartScaffold.Shape

/-- A scalar value under a scalar shape. An integer may stand for a floating-point number. -/
def conformScalar : Scalar → Json → Json
  | .bool, .bool b => .bool b
  | .int, .int i => .int i
  | .double, .int i => .int i
  | .double, .float x => .float x
  | .string, .str s => .str s
  | .datetime, .str s => if isDateText s then .str s else .null
  | .dynamic, value => value
  | _, _ => .null

mutual

def conform : Shape → Json → Json
  | scalar kind, value => conformScalar kind value
  | list (scalar .dynamic), .arr items => .arr items
  | list element, .arr items => .arr ((items.map (conform element)).filter (· != .null))
  | object fields, .obj entries => .obj (conformFields fields entries)
  | _, _ => .null

def conformFields : List (String × Shape) → Entries → List (String × Json)
  | [], _ => []
  | (name, shape) :: rest, entries =>
    (name, conform shape ((entries.get? name).getD .null)) :: conformFields rest entries

end

end DartScaffold.Shape
