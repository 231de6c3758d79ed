import DartScaffold.Run.PageUnits

/-!
The units of one feature, page by page. A feature that has to be given up becomes a single failed unit.
-/

namespace DartScaffold.Run

/-- A feature with the settings of its file. -/
structure Job where
  feature : Feature
  settings : Settings
  deriving Repr

namespace Job

/-- The pages that the plan selects. -/
def pages (job : Job) (plan : Plan) : List Page :=
  match plan.options.page with
  | none => job.feature.pages
  | some wanted => job.feature.pages.filter (·.name == wanted)

def site (job : Job) (page : Page) : Site :=
  { feature := job.feature, page, settings := job.settings }

def generatePages (plan : Plan) (job : Job) :
    List Page → Project → Except Failure (List UnitResult) × Project
  | [], project => (.ok [], project)
  | page :: rest, project =>
    match PageUnits.generate plan (job.site page) project with
    | (.error failure, project) => (.error failure, project)
    | (.ok results, project) =>
      let (more, project) := generatePages plan job rest project
      (more.map (results ++ ·), project)

/-- Tells if a page is asked for that the feature does not have. -/
def tellMissingPage (job : Job) (plan : Plan) (project : Project) : Project :=
  match plan.options.page with
  | some wanted =>
    if (job.pages plan).isEmpty then
      project.tell (Log.warning .generation
        s!"Page '{wanted}' is not configured in feature '{job.feature.name}'.")
    else project
  | none => project

/-- Generates the selected pages, one after the other. -/
def generate (plan : Plan) (job : Job) (project : Project) :
    Except Failure (List UnitResult) × Project :=
  generatePages plan job (job.pages plan) (job.tellMissingPage plan project)

/-- The units of a job by what generating it gave. -/
def unitsOf (job : Job) : Except Failure (List UnitResult) → List UnitResult
  | .ok units => units
  | .error failure => [.aborted job.feature.name failure]

def tellOutcome (job : Job) (outcome : Except Failure (List UnitResult)) (project : Project) :
    Project :=
  match outcome with
  | .ok _ => project
  | .error failure =>
    project.tell (Log.error .generation
      s!"Feature '{job.feature.name}' aborted: {failure.message}")

end Job

end DartScaffold.Run
