import DartScaffold.Run.Job

/-!
Jobs step by step. A step tells of a missing page, looks whether a page can be generated, generates one
API, or prunes one page. Steps are taken to be whole: nobody else comes between the parts of one.
-/

namespace DartScaffold.Run

/-! ### Outcomes in a row -/

/-- The outcome after units that went before it. -/
def ahead (results : List UnitResult) (after : Except Failure (List UnitResult) × Project) :
    Except Failure (List UnitResult) × Project :=
  (after.1.map (results ++ ·), after.2)

/-- Units, and what comes after them if they are not given up. -/
def andThen (first : Except Failure (List UnitResult) × Project)
    (next : Project → Except Failure (List UnitResult) × Project) :
    Except Failure (List UnitResult) × Project :=
  match first with
  | (.error failure, project) => (.error failure, project)
  | (.ok results, project) => ahead results (next project)

namespace PageUnits

/-- Whether the page is generated at all. -/
def accepts (site : Site) (disk : Disk) : Bool :=
  (disk.isDirectory site.directory matches .ok true) && (Validation.pageIssues site.page).isValid

/-- What comes after the APIs of a page. -/
def close (plan : Plan) (site : Site) (project : Project) :
    Except Failure (List UnitResult) × Project :=
  if site.wantsPruning plan then prune plan site project else (.ok [], project)

end PageUnits

/-! ### Steps -/

/-- How far a job is. -/
inductive Stage where
  | fresh
  /-- The pages that are left, none of which has begun. -/
  | between (pages : List Page)
  /-- A page with the APIs of it that are left and their memory, and the pages after it. -/
  | within (page : Page) (apis : Entries) (memory : Memory) (pages : List Page)
  | failed (failure : Failure)

structure Progress where
  stage : Stage := .fresh
  results : List UnitResult := []

/-- What is left of the job, in one go. -/
def Stage.rest (plan : Plan) (job : Job) :
    Stage → Project → Except Failure (List UnitResult) × Project
  | .fresh, project => job.generate plan project
  | .between pages, project => Job.generatePages plan job pages project
  | .within page apis memory pages, project =>
    andThen (andThen (PageUnits.generateApis plan (job.site page) apis memory project)
      (PageUnits.close plan (job.site page))) (Job.generatePages plan job pages)
  | .failed failure, project => (.error failure, project)

namespace Progress

/-- The progress of a job after a step that gave these units. -/
def next (s : Progress) (stage : Stage) : Except Failure (List UnitResult) → Progress
  | .ok results => { stage, results := s.results ++ results }
  | .error failure => { s with stage := .failed failure }

/-- One step. -/
def step (plan : Plan) (job : Job) (s : Progress) (project : Project) : Progress × Project :=
  match s.stage with
  | .fresh => ({ s with stage := .between (job.pages plan) }, job.tellMissingPage plan project)
  | .between [] | .failed _ => (s, project)
  | .between (page :: pages) =>
    let site := job.site page
    if PageUnits.accepts site project.disk then
      ({ s with stage := .within page page.apis (PageUnits.freshMemory site) pages }, project)
    else
      let (outcome, project) := PageUnits.generate plan site project
      (s.next (.between pages) outcome, project)
  | .within page ((name, raw) :: apis) memory pages =>
    let (outcome, memory, project) :=
      ApiUnit.generate plan (job.site page) name raw memory project
    (s.next (.within page apis memory pages) (outcome.map fun result => [result]), project)
  | .within page [] _ pages =>
    let (outcome, project) := PageUnits.close plan (job.site page) project
    (s.next (.between pages) outcome, project)

/-- What the job gives in the end, where the rest is done in one go. -/
def finish (plan : Plan) (job : Job) (s : Progress) (project : Project) :
    Except Failure (List UnitResult) × Project :=
  ahead s.results (s.stage.rest plan job project)

end Progress

end DartScaffold.Run
