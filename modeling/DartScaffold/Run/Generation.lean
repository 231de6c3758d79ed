import DartScaffold.Run.Features
import DartScaffold.Run.Report

/-!
A whole run: the options are checked, the configuration is loaded, and the selected features are
generated.
-/

namespace DartScaffold.Run

/-- The features of the files that the plan selects. -/
def selectJobs (plan : Plan) (files : List ConfigFile) : List Job :=
  files.flatMap fun file =>
    (file.features.filter fun feature =>
      match plan.options.feature with
      | none => true
      | some wanted => feature.name == wanted).map
      fun feature => { feature, settings := file.settings }

/-- What to say if no feature has the name that is asked for. -/
def noFeatureWarnings (plan : Plan) (jobs : List Job) : List String :=
  match plan.options.feature with
  | some wanted =>
    if jobs.isEmpty then [s!"Feature '{wanted}' is not configured; nothing to generate."] else []
  | none => []

/-- The configuration files of a run whose options hold together. -/
def configFiles (plan : Plan) (disk : Disk) : Except Failure (List ConfigFile) := do
  let issues := Validation.optionIssues plan.options
  unless issues.isValid do
    throw (.config (.badRun issues.errorMessages) [("root", .str plan.root.toString)])
  Config.loadAll disk plan.root plan.options.apps

/-- The name of the project as a task of the run. -/
def namedProject (plan : Plan) (project : Project) : Except Failure String × Project :=
  let (name, w) := (Task.projectName plan).run.run { project }
  (name, w.project)

/-- Runs the plan. Nothing is generated if the configuration cannot be used. -/
def generate (schedule : Schedule) (plan : Plan) (disk : Disk) : Except Failure Report × Project :=
  let project := Project.start plan disk
  match configFiles plan disk with
  | .error failure => (.error failure, project)
  | .ok files =>
    match namedProject plan project with
    | (.error failure, project) => (.error failure, project)
    | (.ok name, project) =>
      let jobs := selectJobs plan files
      let warnings := noFeatureWarnings plan jobs
      let project := warnings.foldl (fun project text =>
        project.tell (Log.warning .generation text)) project
      let (units, project) := generateJobs schedule plan jobs project
      let report : Report :=
        { project := name
          root := plan.root.toString
          features := jobs.map fun job => job.feature.name
          warnings }
      (.ok (report.extend units), project)

end DartScaffold.Run
