import DartScaffold.Run.Batch
import DartScaffold.Run.Progress

/-!
The units of features. The features of a batch are generated at the same time: the schedule says which
of them takes the next step, and each finds what the others have made of the disk before. The next
batch begins when all of them are done.
-/

namespace DartScaffold.Run

/-- What is for the machine to say about the order of the steps. -/
structure Schedule where
  /-- Not every machine says how many it has. -/
  processors : Option Nat := none
  /-- Which feature takes the next step, by its place among those of the run. A feature that has no step
  left, or is not in the batch, lets its turn pass. Those that get no turn any more are finished in their
  order. -/
  turns : List Nat := []
  deriving Repr

/-- A job with its place among the jobs of the run, and how far it is. -/
structure Member where
  number : Nat
  job : Job
  progress : Progress := {}

/-- The jobs with their places. None has begun. -/
def members (jobs : List Job) : List Member :=
  jobs.mapIdx fun number job => { number, job }

/-- The member at the given place takes a step, if it is in the batch. -/
def takeTurn (plan : Plan) (number : Nat) : List Member → Project → List Member × Project
  | [], project => ([], project)
  | m :: rest, project =>
    if m.number = number then
      let (progress, project) := m.progress.step plan m.job project
      ({ m with progress } :: rest, project)
    else
      let (rest, project) := takeTurn plan number rest project
      (m :: rest, project)

def takeTurns (plan : Plan) (turns : List Nat) (batch : List Member) (project : Project) :
    List Member × Project :=
  turns.foldl (fun (batch, project) number => takeTurn plan number batch project) (batch, project)

/-- What each job gives, where the rest of them is done one after the other. -/
def finishAll (plan : Plan) :
    List Member → Project → List (Job × Except Failure (List UnitResult)) × Project
  | [], project => ([], project)
  | m :: rest, project =>
    let (outcome, project) := m.progress.finish plan m.job project
    let (found, project) := finishAll plan rest project
    ((m.job, outcome) :: found, project)

def generateBatch (schedule : Schedule) (plan : Plan) (batch : List Member) (project : Project) :
    List UnitResult × Project :=
  let (batch, project) := takeTurns plan schedule.turns batch project
  let (found, project) := finishAll plan batch project
  (found.flatMap fun (job, outcome) => job.unitsOf outcome,
    found.foldl (fun project (job, outcome) => job.tellOutcome outcome project) project)

def generateBatches (schedule : Schedule) (plan : Plan) :
    List (List Member) → Project → List UnitResult × Project
  | [], project => ([], project)
  | batch :: rest, project =>
    let (units, project) := generateBatch schedule plan batch project
    let (more, project) := generateBatches schedule plan rest project
    (units ++ more, project)

/-- Generates features batch by batch; the units come in the order of the jobs. No machine has so many
processors that there is no size for a batch. -/
def generateJobs (schedule : Schedule) (plan : Plan) (jobs : List Job) (project : Project) :
    List UnitResult × Project :=
  let size := ((batchSize? jobs.length none schedule.processors).getD 1).toNat
  generateBatches schedule plan (batches size (members jobs)) project

/-- A project with a given disk and the name that the options give it, if they do. -/
def Project.start (plan : Plan) (disk : Disk) : Project :=
  { disk, name := plan.options.projectName }

def generateFeatures (schedule : Schedule) (plan : Plan) (features : List Feature)
    (settings : Settings) (disk : Disk) : List UnitResult × Project :=
  generateJobs schedule plan (features.map fun feature => { feature, settings }) (.start plan disk)

end DartScaffold.Run
