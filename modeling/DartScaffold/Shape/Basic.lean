/-!
The shape of a JSON value: what a Dart class or field made from it has to hold. Lists have one
element shape, objects keep their fields in order.
-/

namespace DartScaffold

inductive Scalar where
  | int
  | double
  | bool
  | string
  | datetime
  | dynamic
  deriving DecidableEq, Repr

inductive Shape where
  | scalar (kind : Scalar)
  | list (element : Shape)
  | object (fields : List (String × Shape))
  deriving Repr

/-- An object's fields, in order. -/
abbrev Fields := List (String × Shape)

/-- Where an object stands in a shape: the names of the fields that lead to it. -/
abbrev Path := List String

namespace Shape

instance : Inhabited Shape := ⟨scalar .dynamic⟩

mutual

def decEq : (a b : Shape) → Decidable (a = b)
  | scalar x, b => by
    cases b with
    | scalar y => exact decidable_of_iff (x = y) (by simp)
    | _ => exact isFalse (by simp)
  | list x, b => by
    cases b with
    | list y => exact match decEq x y with
      | isTrue h => isTrue (by rw [h])
      | isFalse h => isFalse (by simpa using h)
    | _ => exact isFalse (by simp)
  | object xs, b => by
    cases b with
    | object ys => exact match decEqFields xs ys with
      | isTrue h => isTrue (by rw [h])
      | isFalse h => isFalse (by simpa using h)
    | _ => exact isFalse (by simp)

def decEqFields : (a b : List (String × Shape)) → Decidable (a = b)
  | [], [] => isTrue rfl
  | [], _ :: _ => isFalse (by simp)
  | _ :: _, [] => isFalse (by simp)
  | (k, x) :: xs, (l, y) :: ys =>
    if h : k = l then
      match decEq x y, decEqFields xs ys with
      | isTrue i, isTrue j => isTrue (by rw [h, i, j])
      | isFalse i, _ => isFalse (by simp [i])
      | _, isFalse j => isFalse (by simp [j])
    else isFalse (by simp [h])

end

instance : DecidableEq Shape := decEq

/-- The innermost element shape of nested lists. -/
def unwrapped : Shape → Shape
  | list element => element.unwrapped
  | shape => shape

def field? : Fields → String → Option Shape
  | [], _ => none
  | (k, shape) :: rest, name => if k = name then some shape else field? rest name

mutual

/-- The objects of a shape with their paths, an object before those inside it. List layers leave
no trace in a path. -/
def nodesAt (path : Path) : Shape → List (Path × Fields)
  | scalar _ => []
  | list element => nodesAt path element
  | object fields => (path, fields) :: fieldNodes path fields

def fieldNodes (path : Path) : List (String × Shape) → List (Path × Fields)
  | [] => []
  | (name, shape) :: rest => nodesAt (path ++ [name]) shape ++ fieldNodes path rest

end

def nodes (shape : Shape) : List (Path × Fields) :=
  shape.nodesAt []

/-- How many objects a shape has, one for each that is enumerated. -/
def countNodes (shape : Shape) : Nat :=
  shape.nodes.foldl (fun count _ => count + 1) 0

end Shape

end DartScaffold
