import DartScaffold.Failure
import DartScaffold.Shape.Infer

/-!
Samples: a sample is an object, or a list whose first element is an object and speaks for all.
-/

namespace DartScaffold.Sample

/-- The object that shows the shape of a sample, and whether the sample is a list. -/
def shapeObject (place : String) : Json → Except Failure (Entries × Bool)
  | .obj entries => .ok (entries, false)
  | .arr [] => .error (.sample place .emptyArray)
  | .arr (.obj entries :: _) => .ok (entries, true)
  | .arr (first :: _) => .error (.sample place (.elementsNotObjects first.typeName))
  | value => .error (.sample place (.notObjectOrArray value.typeName))

/-- The fields of a value's shape; `source` names the sample in the message. -/
def fieldsOf (value : Json) (source : Option String) : Except Failure Fields :=
  if Shape.callLimit < Shape.callsFor value then .error .tooManyCalls
  else match Shape.infer value with
  | .object fields => .ok fields
  | _ =>
    let place := match source with
      | none | some "" => "<none>"
      | some place => place
    .error (.sample place .shapeNotObject)

end DartScaffold.Sample
