import DartScaffold.Layer.DataSource
import DartScaffold.Layer.Repository

/-!
The use case of an API, which is a file of its own, and the fragments of all layers.
-/

namespace DartScaffold.Layer.Context

def useCasePath (c : Context) : String :=
  s!"domain/usecases/{c.apiFile}_use_case.dart"

def useCase (c : Context) : String :=
  let base := if c.api.isStream then "StreamUseCase" else "UseCase"
  "\n".intercalate <|
    [coreImport, ""] ++ c.modelImports "../../data/models/body" (some "../entities") ++
    [s!"import '../repositories/{c.pageFile}_repository.dart';",
     "",
     s!"class {c.apiClass}UseCase implements {base}<{c.entityClass}, {c.bodyClass}> \x7b",
     s!"  {c.apiClass}UseCase(\x7b",
     "    required this.repository,",
     "  \x7d);",
     "",
     s!"  final {c.pageClass}Repository repository;",
     "",
     "  @override"] ++
    c.signature c.eitherClass "call" " \x7b" ++
    [s!"    return repository.{c.apiMethod}("] ++ c.forwarded "      " ++
    ["    );", "  \x7d", "\x7d", ""]

/-- What the API adds to the aggregate files of the layers. -/
def fragments (c : Context) : Except Failure (List Aggregate.Fragment) := do
  return [← c.dataSource, c.repositoryImpl, c.repository]

end DartScaffold.Layer.Context
