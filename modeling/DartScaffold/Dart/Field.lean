import DartScaffold.Dart.Identifier
import DartScaffold.Shape.Basic
import DartScaffold.Text.Numbered

/-!
The fields of a model class: one for each key of an object, in order. A field whose name an
earlier field or a reserved member has already is numbered.
-/

namespace DartScaffold.Dart

structure Field where
  key : String
  name : String
  shape : Shape
  /-- Where the objects that the field holds stand in the shape. -/
  path : Path
  deriving Repr, DecidableEq

def fieldsAt (path : Path) : List String → Fields → List Field
  | _, [] => []
  | used, (key, shape) :: rest =>
    let name := Text.unusedName (fieldName key) used
    { key, name, shape, path := path ++ [key] } :: fieldsAt path (name :: used) rest

end DartScaffold.Dart
