import DartScaffold.Aggregate.Fragment
import DartScaffold.Aggregate.Marker
import DartScaffold.Layer.Context

/-!
The repository of a page: an interface in the domain layer, and in the data layer its
implementation, which calls the data source and turns exceptions into failures.
-/

namespace DartScaffold.Layer.Context

open Aggregate (Fragment anchorMarker)

/-- The answer of the data source as an entity. -/
def entityValue (c : Context) : String :=
  if !c.api.returnsModel then "data"
  else if c.responseList then "data.map((e) => e.toEntity()).toList()"
  else "data.toEntity()"

def repositoryCall (c : Context) : List String :=
  if c.api.isStream then
    [s!"      final response = remoteDataSource.{c.apiMethod}("] ++ c.forwarded "        " ++
    ["      );",
     "      await for (final data in response) \x7b",
     s!"        yield Right({c.entityValue});",
     "      \x7d"]
  else
    [s!"      final data = await remoteDataSource.{c.apiMethod}("] ++ c.forwarded "        " ++
    ["      );", s!"      return Right({c.entityValue});"]

def repositoryBody (c : Context) : List String :=
  let keyword := if c.api.isStream then "yield" else "return"
  ["    try \x7b"] ++ c.repositoryCall ++
  ["    \x7d on MorphemeException catch (e) \x7b",
   s!"      {keyword} Left(e.toMorphemeFailure());",
   "    \x7d catch (e) \x7b",
   s!"      {keyword} Left(InternalFailure(e.toString()));",
   "    \x7d"]

def repositoryImplSkeleton (c : Context) : String :=
  let page := c.pageClass
  "\n".intercalate
    [coreImport,
     "",
     s!"import '../../domain/repositories/{c.pageFile}_repository.dart';",
     s!"import '../datasources/{c.pageFile}_remote_data_source.dart';",
     "",
     s!"class {page}RepositoryImpl implements {page}Repository \x7b",
     s!"  {page}RepositoryImpl(\x7b",
     "    required this.remoteDataSource,",
     "  \x7d);",
     "",
     s!"  final {page}RemoteDataSource remoteDataSource;",
     "",
     s!"  {anchorMarker implementationSection}",
     "\x7d",
     ""]

def repositoryImpl (c : Context) : Fragment :=
  let lines := ["  @override"] ++ c.signature c.eitherClass c.apiMethod c.asyncEnding ++
    c.repositoryBody ++ ["  \x7d"]
  { kind := .repositoryImpl
    api := c.api.name
    relativePath := s!"data/repositories/{c.pageFile}_repository_impl.dart"
    skeleton := c.repositoryImplSkeleton
    imports := c.modelImports "../models/body" (some "../../domain/entities") ++
      (if c.api.returnsModel then ["import '../../mapper.dart';"] else [])
    blocks := [(implementationSection, "\n".intercalate lines)] }

def repositorySkeleton (c : Context) : String :=
  "\n".intercalate
    [coreImport,
     "",
     s!"abstract class {c.pageClass}Repository \x7b",
     s!"  {anchorMarker interfaceSection}",
     "\x7d",
     ""]

def repository (c : Context) : Fragment :=
  { kind := .domainRepository
    api := c.api.name
    relativePath := s!"domain/repositories/{c.pageFile}_repository.dart"
    skeleton := c.repositorySkeleton
    imports := c.modelImports "../../data/models/body" (some "../entities")
    blocks :=
      [(interfaceSection, "\n".intercalate (c.signature c.eitherClass c.apiMethod ";"))] }

end DartScaffold.Layer.Context
