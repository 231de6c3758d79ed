import DartScaffold.Dart.Identifier
import DartScaffold.Shape.Basic
import DartScaffold.Text.Numbered

/-!
The mapper names of one page. All APIs of a page write their extensions into one file, so a
mapper name has one owner: an API and a path in its shape. The names of the APIs themselves are
claimed before any nested one.
-/

namespace DartScaffold.ClassName

/-- The API and the path that a mapper name belongs to. -/
abbrev Owner := String × Path

structure Scope where
  claims : List (Owner × String) := []
  deriving Repr

namespace Scope

def names (scope : Scope) : List String :=
  scope.claims.map Prod.snd

/-- The name that `owner` has, or from now on has: `candidate`, numbered if another has it. -/
def claim (scope : Scope) (owner : Owner) (candidate : String) : String × Scope :=
  match scope.claims.lookup owner with
  | some name => (name, scope)
  | none =>
    let name := Text.unusedName candidate scope.names
    (name, { claims := scope.claims ++ [(owner, name)] })

def ofApis (apis : List String) : Scope :=
  apis.foldl (fun scope api => (scope.claim (api, []) (Dart.classStem api)).2) {}

end Scope

end DartScaffold.ClassName
