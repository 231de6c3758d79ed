/-!
What one API contributes to one aggregate file of its page: import lines, one block for each
section, and the text of the file for the case that it does not exist yet.
-/

namespace DartScaffold.Aggregate

inductive FileKind where
  | remoteDataSource
  | repositoryImpl
  | domainRepository
  | mapper
  deriving DecidableEq, Repr

structure Fragment where
  kind : FileKind
  api : String
  relativePath : String
  /-- Has an anchor for each section. -/
  skeleton : String
  imports : List String := []
  /-- Section names with the text of the block, indented for its place. -/
  blocks : List (String × String) := []
  deriving Repr

end DartScaffold.Aggregate
