import DartScaffold.Artifact

/-!
The stem of a class name: one decision for a path, from which the names of all artifacts are
rendered, so that the classes made from one object differ in their suffix alone.
-/

namespace DartScaffold.ClassName

inductive Stem where
  /-- The whole sample; its classes always carry the suffix of their artifact. -/
  | root (text : String)
  | bare (text : String)
  /-- A nested object that had to borrow the suffix. -/
  | suffixed (text : String)
  deriving DecidableEq, Repr

namespace Stem

/-- The name for one artifact; `api` is the stem of the API's own name. -/
def render (api : String) : Stem → Artifact → String
  | root _, .mapper => api
  | bare text, .mapper => api ++ text
  | suffixed text, .mapper => api ++ text
  | root text, kind => text ++ kind.suffix
  | suffixed text, kind => text ++ kind.suffix
  | bare text, .extra => text ++ "Extra"
  | bare text, _ => text

end Stem

end DartScaffold.ClassName
