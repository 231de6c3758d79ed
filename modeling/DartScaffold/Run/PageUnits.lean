import DartScaffold.Run.ApiUnit
import DartScaffold.Validation.Page

/-!
The units of one page: its APIs in the order of the configuration, then, where pruning is wanted,
one unit for the aggregate files that lost APIs. A page without a directory, or whose APIs would
write the same files, is a failed unit as a whole.
-/

namespace DartScaffold.Run

open Disk (Location)

namespace PageUnits

/-- The page as one failed unit. -/
def refuse (site : Site) (fault : ConfigFault) (context : Entries) (project : Project) :
    List UnitResult × Project :=
  let failure : Failure := .config fault context
  let result := { site.result none with failure := some failure }
  ([result], project.tell (Log.error .generation s!"{result.label}: {failure.message}"))

/-- The APIs one after the other, with the memory that they share. -/
def generateApis (plan : Plan) (site : Site) :
    Entries → Memory → Project → Except Failure (List UnitResult) × Project
  | [], _, project => (.ok [], project)
  | (name, raw) :: rest, memory, project =>
    match ApiUnit.generate plan site name raw memory project with
    | (.error failure, _, project) => (.error failure, project)
    | (.ok result, memory, project) =>
      let (results, project) := generateApis plan site rest memory project
      (results.map (result :: ·), project)

def aggregatePaths (site : Site) : List String :=
  let stem := Text.snakeCase site.page.name
  [s!"data/datasources/{stem}_remote_data_source.dart",
   s!"data/repositories/{stem}_repository_impl.dart",
   s!"domain/repositories/{stem}_repository.dart",
   "mapper.dart"]

/-- Prunes files until one fails. The files pruned before it are given as well. -/
def pruneEach (mode : Disk.WriteMode) (keep : List String) :
    List Location → Disk → List Saved × Except Failure Unit × Disk
  | [], disk => ([], .ok (), disk)
  | place :: rest, disk =>
    match Aggregate.prune disk mode place keep with
    | (.error failure, disk) => ([], .error failure, disk)
    | (.ok saved, disk) =>
      let (files, outcome, disk) := pruneEach mode keep rest disk
      (saved.toList ++ files, outcome, disk)

/-- The unit of the pruned files, if there are any. Only the disk's failures are its own. -/
def prune (plan : Plan) (site : Site) (project : Project) :
    Except Failure (List UnitResult) × Project :=
  let places := (aggregatePaths site).map site.directory.child
  let (files, outcome, disk) := pruneEach plan.mode site.page.apiNames places project.disk
  let project := { project with disk }
  let result := { site.result none with files }
  match outcome with
  | .ok () => (.ok (if files.isEmpty then [] else [result]), project)
  | .error (.disk e) =>
    let failed := { result with failure := some (.disk e) }
    (.ok [failed],
      project.tell (Log.error .generation s!"{result.label}: prune failed: {e.message}"))
  | .error failure => (.error failure, project)

/-- The memory that a page starts with: no samples, and the mapper names of its APIs. -/
def freshMemory (site : Site) : Memory :=
  { scope := ClassName.Scope.ofApis site.page.apiNames }

def generateAccepted (plan : Plan) (site : Site) (project : Project) :
    Except Failure (List UnitResult) × Project :=
  match generateApis plan site site.page.apis (freshMemory site) project with
  | (.error failure, project) => (.error failure, project)
  | (.ok results, project) =>
    if site.wantsPruning plan then
      let (pruned, project) := prune plan site project
      (pruned.map (results ++ ·), project)
    else (.ok results, project)

/-- Generates one page. An error means that its feature cannot go on. -/
def generate (plan : Plan) (site : Site) (project : Project) :
    Except Failure (List UnitResult) × Project :=
  match project.disk.isDirectory site.directory with
  | .error e => (.error (.disk e), project)
  | .ok false =>
    let (results, project) := refuse site .noPageDirectory
      [("directory", .str site.directory.toString)] project
    (.ok results, project)
  | .ok true =>
    let issues := Validation.pageIssues site.page
    if issues.isValid then generateAccepted plan site project
    else
      let (results, project) :=
        refuse site (.clashingFiles issues.errorMessages) site.context project
      (.ok results, project)

end PageUnits

end DartScaffold.Run
