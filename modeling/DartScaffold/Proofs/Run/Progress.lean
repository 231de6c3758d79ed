import DartScaffold.Run.Progress
import Mathlib.Algebra.GroupWithZero.Nat
import Mathlib.Logic.Function.Iterate

/-!
What steps lead to. What is left of a job is a function of its progress that no step changes
(`finish_step`), so a job that is worked off step by step ends as it does in one go.
-/

namespace DartScaffold.Run

/-! ### Outcomes in a row -/

section AndThen

variable (results more : List UnitResult) (first : Except Failure (List UnitResult) × Project)
  (next last : Project → Except Failure (List UnitResult) × Project)

@[simp] theorem ahead_nil : ahead [] first = first := by
  obtain ⟨_ | results, project⟩ := first <;> rfl

theorem ahead_append : ahead (results ++ more) first = ahead results (ahead more first) := by
  obtain ⟨_ | rest, project⟩ := first
  · rfl
  · simp only [ahead, Except.map, List.append_assoc]

theorem andThen_ahead : andThen (ahead results first) next = ahead results (andThen first next) := by
  obtain ⟨_ | more, project⟩ := first
  · rfl
  · exact ahead_append results more (next project)

theorem andThen_assoc :
    andThen (andThen first next) last = andThen first fun project => andThen (next project) last := by
  obtain ⟨_ | results, project⟩ := first
  · rfl
  · exact andThen_ahead results (next project) last

variable {first next}

end AndThen

/-! ### Pages and jobs -/

namespace PageUnits

variable (plan : Plan) (site : Site)

theorem generateApis_cons (name : String) (raw : Json) (apis : Entries) (memory : Memory)
    (project : Project) : generateApis plan site ((name, raw) :: apis) memory project =
      andThen ((ApiUnit.generate plan site name raw memory project).1.map fun result => [result],
          (ApiUnit.generate plan site name raw memory project).2.2)
        (generateApis plan site apis (ApiUnit.generate plan site name raw memory project).2.1) := by
  rw [generateApis]
  rcases ApiUnit.generate plan site name raw memory project with ⟨_ | result, memory, project⟩ <;> rfl

theorem generateAccepted_eq (project : Project) : generateAccepted plan site project =
    andThen (generateApis plan site site.page.apis (freshMemory site) project) (close plan site) := by
  unfold generateAccepted
  rcases generateApis plan site site.page.apis (freshMemory site) project with ⟨_ | results, project⟩
  · rfl
  · dsimp only [andThen, close]
    split
    · rfl
    · simp only [ahead, Except.map, List.append_nil]

variable {plan site}

theorem generate_of_accepts {project : Project} (h : accepts site project.disk = true) :
    generate plan site project = generateAccepted plan site project := by
  obtain ⟨hdirectory, hvalid⟩ := Bool.and_eq_true_iff.mp h
  unfold generate
  split
  · rename_i heq
    rw [heq] at hdirectory
    contradiction
  · rename_i heq
    rw [heq] at hdirectory
    contradiction
  · exact if_pos hvalid

/-- A page that has its directory is not accepted because of its own faults. -/
theorem not_isValid_of_not_accepts {project : Project} (h : ¬ accepts site project.disk = true)
    (hdirectory : project.disk.isDirectory site.directory = .ok true) :
    ¬ (Validation.pageIssues site.page).isValid = true := by
  intro hvalid
  refine h (Bool.and_eq_true_iff.mpr ⟨?_, hvalid⟩)
  rw [hdirectory]

end PageUnits

namespace Job

theorem generatePages_cons (plan : Plan) (job : Job) (page : Page) (pages : List Page)
    (project : Project) : generatePages plan job (page :: pages) project =
      andThen (PageUnits.generate plan (job.site page) project) (generatePages plan job pages) := by
  rfl

end Job

/-! ### Steps -/

namespace Stage

/-- Nothing is left. -/
def finished : Stage → Bool
  | .between [] | .failed _ => true
  | _ => false

/-- So many steps are left at most. -/
def left (plan : Plan) (job : Job) : Stage → Nat
  | .fresh => 1 + ofPages (job.pages plan)
  | .between pages => ofPages pages
  | .within _ apis _ pages => apis.length + 1 + ofPages pages
  | .failed _ => 0
where
  ofPages (pages : List Page) : Nat := (pages.map fun page => page.apis.length + 2).sum

/-- The stage speaks of pages of the job and of their APIs. -/
def Of (plan : Plan) (job : Job) : Stage → Prop
  | .between pages => pages ⊆ job.pages plan
  | .within page apis _ pages => page ∈ job.pages plan ∧ apis ⊆ page.apis ∧ pages ⊆ job.pages plan
  | _ => True

theorem finished_of_left {plan : Plan} {job : Job} {stage : Stage} (h : stage.left plan job = 0) :
    stage.finished = true := by
  cases stage with
  | fresh => simp [left] at h
  | between pages =>
      cases pages with
      | nil => rfl
      | cons page pages => simp [left, left.ofPages] at h
  | within page apis memory pages => simp [left] at h
  | failed failure => rfl

end Stage

namespace Progress

/-- What a finished job gave. -/
def outcome (s : Progress) : Except Failure (List UnitResult) :=
  match s.stage with
  | .failed failure => .error failure
  | _ => .ok s.results

section Step

variable {plan : Plan} {job : Job} {s : Progress} {project : Project}

theorem finish_next (stage : Stage) (outcome : Except Failure (List UnitResult)) :
    (s.next stage outcome).finish plan job project =
      ahead s.results (andThen (outcome, project) (stage.rest plan job)) := by
  cases outcome with
  | error failure => rfl
  | ok results => exact ahead_append s.results results _

theorem step_of_accepts {page : Page} {pages : List Page} (hstage : s.stage = .between (page :: pages))
    (h : PageUnits.accepts (job.site page) project.disk = true) :
    s.step plan job project = ({ s with
      stage := .within page page.apis (PageUnits.freshMemory (job.site page)) pages }, project) := by
  rw [step, hstage]
  exact if_pos h

theorem step_of_not_accepts {page : Page} {pages : List Page}
    (hstage : s.stage = .between (page :: pages))
    (h : ¬ PageUnits.accepts (job.site page) project.disk = true) :
    s.step plan job project =
      (s.next (.between pages) (PageUnits.generate plan (job.site page) project).1,
        (PageUnits.generate plan (job.site page) project).2) := by
  rw [step, hstage]
  exact if_neg h

theorem step_of_no_apis {page : Page} {memory : Memory} {pages : List Page}
    (hstage : s.stage = .within page [] memory pages) :
    s.step plan job project =
      (s.next (.between pages) (PageUnits.close plan (job.site page) project).1,
        (PageUnits.close plan (job.site page) project).2) := by
  rw [step, hstage]

theorem step_of_api {page : Page} {name : String} {raw : Json} {apis : Entries} {memory : Memory}
    {pages : List Page} (hstage : s.stage = .within page ((name, raw) :: apis) memory pages) :
    s.step plan job project =
      (s.next (.within page apis
          (ApiUnit.generate plan (job.site page) name raw memory project).2.1 pages)
        ((ApiUnit.generate plan (job.site page) name raw memory project).1.map fun result => [result]),
        (ApiUnit.generate plan (job.site page) name raw memory project).2.2) := by
  rw [step, hstage]

/-- A step leaves the end as it is. -/
theorem finish_step (plan : Plan) (job : Job) (s : Progress) (project : Project) :
    (s.step plan job project).1.finish plan job (s.step plan job project).2 =
      s.finish plan job project := by
  obtain ⟨stage, results⟩ := s
  cases stage with
  | fresh => rfl
  | failed failure => rfl
  | between pages =>
      cases pages with
      | nil => rfl
      | cons page pages =>
          have hfinish : finish plan job ⟨.between (page :: pages), results⟩ project =
              ahead results (andThen (PageUnits.generate plan (job.site page) project)
                (Job.generatePages plan job pages)) :=
            congrArg (ahead results) (Job.generatePages_cons plan job page pages project)
          rw [hfinish]
          by_cases h : PageUnits.accepts (job.site page) project.disk = true
          · rw [step_of_accepts rfl h, PageUnits.generate_of_accepts h, PageUnits.generateAccepted_eq]
            rfl
          · rw [step_of_not_accepts rfl h, finish_next]
            rfl
  | within page apis memory pages =>
      cases apis with
      | nil =>
          rw [step_of_no_apis rfl, finish_next, finish, Stage.rest, PageUnits.generateApis]
          dsimp only [andThen]
          rw [ahead_nil]
          rfl
      | cons entry apis =>
          obtain ⟨name, raw⟩ := entry
          rw [step_of_api rfl, finish_next, finish, Stage.rest, PageUnits.generateApis_cons,
            andThen_assoc _ _ (PageUnits.close plan (job.site page)), andThen_assoc]
          rfl

theorem finish_of_finished (h : s.stage.finished = true) :
    s.finish plan job project = (s.outcome, project) := by
  obtain ⟨stage, results⟩ := s
  cases stage with
  | fresh => contradiction
  | within page apis memory pages => contradiction
  | failed failure => rfl
  | between pages =>
      cases pages with
      | cons page pages => contradiction
      | nil =>
          have hnone : Job.generatePages plan job [] project = (.ok [], project) := by rfl
          rw [finish, Stage.rest, hnone]
          simp only [ahead, Except.map, List.append_nil]
          rfl

theorem left_next (stage : Stage) (outcome : Except Failure (List UnitResult)) :
    (s.next stage outcome).stage.left plan job ≤ stage.left plan job := by
  cases outcome with
  | error failure => exact Nat.zero_le _
  | ok results => exact Nat.le_refl _

theorem of_next (stage : Stage) (outcome : Except Failure (List UnitResult))
    (h : stage.Of plan job) : (s.next stage outcome).stage.Of plan job := by
  cases outcome with
  | error failure => trivial
  | ok results => exact h

/-- What a step leads to, by the stage: it does not take long any more, and stays with the job. -/
theorem stage_step (project : Project) (hs : s.stage.Of plan job) :
    (s.step plan job project).1.stage.left plan job ≤ s.stage.left plan job - 1 ∧
      (s.step plan job project).1.stage.Of plan job := by
  obtain ⟨stage, results⟩ := s
  cases stage with
  | fresh => exact ⟨by simp [step, Stage.left], List.Subset.refl _⟩
  | failed failure => exact ⟨Nat.zero_le _, trivial⟩
  | between pages =>
      cases pages with
      | nil => exact ⟨by simp [step, Stage.left, Stage.left.ofPages], hs⟩
      | cons page pages =>
          obtain ⟨hpage, hpages⟩ := List.cons_subset.mp hs
          have hleft : Stage.left plan job (.between (page :: pages)) =
              page.apis.length + 2 + Stage.left plan job (.between pages) := by
            simp [Stage.left, Stage.left.ofPages]
          by_cases h : PageUnits.accepts (job.site page) project.disk = true
          · rw [step_of_accepts rfl h, hleft]
            refine ⟨?_, hpage, List.Subset.refl _, hpages⟩
            simp only [Stage.left]
            omega
          · rw [step_of_not_accepts rfl h, hleft]
            exact ⟨Nat.le_trans (left_next _ _) (by omega), of_next (.between pages) _ hpages⟩
  | within page apis memory pages =>
      obtain ⟨hpage, hapis, hpages⟩ := hs
      cases apis with
      | nil =>
          rw [step_of_no_apis rfl]
          refine ⟨Nat.le_trans (left_next _ _) ?_, of_next (.between pages) _ hpages⟩
          simp [Stage.left]
      | cons entry apis =>
          obtain ⟨name, raw⟩ := entry
          rw [step_of_api rfl]
          refine ⟨Nat.le_trans (left_next _ _) ?_, of_next (.within page apis _ pages) _
            ⟨hpage, (List.cons_subset.mp hapis).2, hpages⟩⟩
          simp only [Stage.left, List.length_cons]
          omega

end Step

end Progress

/-! ### Many steps -/

namespace Job

variable {plan : Plan} {job : Job} {project : Project} {n : Nat}

/-- The job after so many steps. -/
def run (plan : Plan) (job : Job) (n : Nat) (project : Project) : Progress × Project :=
  (fun s : Progress × Project => s.1.step plan job s.2)^[n] ({}, project)

/-- So many steps are enough. -/
def length (plan : Plan) (job : Job) : Nat :=
  Stage.left plan job .fresh

theorem run_succ (plan : Plan) (job : Job) (n : Nat) (project : Project) :
    job.run plan (n + 1) project =
      (job.run plan n project).1.step plan job (job.run plan n project).2 :=
  Function.iterate_succ_apply' _ _ _

theorem stage_run (plan : Plan) (job : Job) (n : Nat) (project : Project) :
    (job.run plan n project).1.stage.left plan job ≤ job.length plan - n ∧
      (job.run plan n project).1.stage.Of plan job := by
  induction n with
  | zero => exact ⟨Nat.le_refl _, trivial⟩
  | succ n ih =>
      obtain ⟨hleft, hof⟩ := ih
      rw [run_succ]
      obtain ⟨hnext, hof'⟩ := Progress.stage_step (job.run plan n project).2 hof
      exact ⟨by omega, hof'⟩

theorem finished_run (h : job.length plan ≤ n) :
    (job.run plan n project).1.stage.finished = true := by
  have hleft : (job.run plan n project).1.stage.left plan job = 0 := by
    have hbound := (stage_run plan job n project).1
    omega
  exact Stage.finished_of_left hleft

theorem finish_run (plan : Plan) (job : Job) (n : Nat) (project : Project) :
    (job.run plan n project).1.finish plan job (job.run plan n project).2 =
      job.generate plan project := by
  induction n with
  | zero => exact ahead_nil _
  | succ n ih => rw [run_succ, Progress.finish_step, ih]

/-- A job that is done step by step ends as it does in one go. -/
theorem generate_of_run (h : (job.run plan n project).1.stage.finished = true) :
    job.generate plan project = ((job.run plan n project).1.outcome, (job.run plan n project).2) :=
  (finish_run plan job n project).symm.trans (Progress.finish_of_finished h)

end Job

end DartScaffold.Run
