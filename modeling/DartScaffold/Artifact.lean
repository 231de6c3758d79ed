/-!
The families of Dart classes made from one shape. Four of them are model files; the mapper joins
the response to the entity and lives in a file of its page.
-/

namespace DartScaffold

inductive Artifact where
  | body
  | response
  | entity
  | mapper
  | extra
  deriving DecidableEq, Repr

namespace Artifact

def all : List Artifact := [body, response, entity, mapper, extra]

theorem mem_all (kind : Artifact) : kind ∈ all := by
  cases kind <;> decide

/-- What ends the name of a root class. -/
def suffix : Artifact → String
  | body => "Body"
  | response => "Response"
  | entity => "Entity"
  | mapper => ""
  | extra => "Extra"

def name : Artifact → String
  | body => "body"
  | response => "response"
  | entity => "entity"
  | mapper => "mapper"
  | extra => "extra"

end Artifact

end DartScaffold
