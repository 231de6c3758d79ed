import DartScaffold.Proofs.Run.Progress
import DartScaffold.Run.Features

/-!
Batches of jobs. Whatever the schedule, a run is steps of its jobs and things told between them; what
none of these changes (`Persistent`) holds therefore of the jobs when all of them are done, and the units
are what they have come to (`Persistent.generateJobs`). It is so with what a job can come to at all
(`Job.Reaches`), whatever becomes of its project between its steps.
-/

namespace DartScaffold.Run

/-! ### Jobs and their projects -/

/-- The two projects differ in what was told alone. -/
structure Project.Agrees (p p' : Project) : Prop where
  disk : p'.disk = p.disk
  name : p'.name = p.name

theorem Project.Agrees.refl (p : Project) : p.Agrees p := ⟨rfl, rfl⟩

theorem Project.Agrees.trans {p p' q : Project} (h : p.Agrees p') (h' : p'.Agrees q) : p.Agrees q :=
  ⟨h'.disk.trans h.disk, h'.name.trans h.name⟩

namespace Member

/-- The member after a step on the project. -/
def stepped (plan : Plan) (m : Member) (p : Project) : Member :=
  { m with progress := (m.progress.step plan m.job p).1 }

/-- The units of a member that is done. -/
def units (m : Member) : List UnitResult :=
  m.job.unitsOf m.progress.outcome

end Member

/-- A judgment on jobs, how far they are, and their project, which no step and nothing told changes. -/
structure Persistent (plan : Plan) (P : List Member → Project → Prop) : Prop where
  step : ∀ {before m after p}, P (before ++ m :: after) p →
    P (before ++ m.stepped plan p :: after) (m.progress.step plan m.job p).2
  told : ∀ {ms p p'}, p.Agrees p' → P ms p → P ms p'
  of : ∀ {ms p}, P ms p → ∀ m ∈ ms, m.progress.stage.Of plan m.job

/-- `done` are the members of the batch when all of them are done. -/
structure Done (batch done : List Member) : Prop where
  jobs : done.map Member.job = batch.map Member.job
  finished : ∀ m ∈ done, m.progress.stage.finished = true

theorem Done.nil : Done [] [] := ⟨rfl, List.forall_mem_nil _⟩

theorem Done.append {batch done batch' done' : List Member} (h : Done batch done)
    (h' : Done batch' done') : Done (batch ++ batch') (done ++ done') where
  jobs := by rw [List.map_append, List.map_append, h.jobs, h'.jobs]
  finished := List.forall_mem_append.mpr ⟨h.finished, h'.finished⟩

theorem agrees_tellOutcomes (found : List (Job × Except Failure (List UnitResult))) (p : Project) :
    p.Agrees (found.foldl (fun project (job, outcome) => job.tellOutcome outcome project) p) := by
  induction found generalizing p with
  | nil => exact .refl p
  | cons head found ih =>
      obtain ⟨job, outcome⟩ := head
      have hrest := ih (job.tellOutcome outcome p)
      cases outcome with
      | ok _ => exact hrest
      | error failure => exact ⟨hrest.disk, hrest.name⟩

/-! ### The parts -/

section Batches

variable {α : Type}

theorem flatten_batches (size : Nat) (jobs : List α) : (batches size jobs).flatten = jobs := by
  induction jobs using batches.induct size with
  | case1 => rw [batches, List.flatten_nil]
  | case2 job rest ih =>
      rw [batches, List.flatten_cons, ih, List.cons_append, List.take_append_drop]

theorem batches_bounds {size : Nat} (hsize : 1 ≤ size) (jobs : List α) :
    ∀ batch ∈ batches size jobs, batch ≠ [] ∧ batch.length ≤ size := by
  induction jobs using batches.induct size with
  | case1 => simp [batches]
  | case2 job rest ih =>
      rw [batches, List.forall_mem_cons]
      refine ⟨⟨List.cons_ne_nil _ _, ?_⟩, ih⟩
      have htaken := List.length_take_le (size - 1) rest
      rw [List.length_cons]
      omega

end Batches

theorem map_job_members (jobs : List Job) : (members jobs).map Member.job = jobs := by
  refine List.ext_getElem (by simp [members]) fun n _ _ => ?_
  simp [members]

theorem forall_mem_members {Q : Member → Prop} {jobs : List Job}
    (h : ∀ number, ∀ job ∈ jobs, Q { number, job }) : ∀ m ∈ members jobs, Q m := by
  intro m hm
  obtain ⟨number, hnumber, rfl⟩ := List.mem_mapIdx.mp hm
  exact h number _ (List.getElem_mem hnumber)

theorem nodup_number_members (jobs : List Job) : ((members jobs).map Member.number).Nodup := by
  have hnumbers : (members jobs).map Member.number = List.range jobs.length := by
    refine List.ext_getElem (by simp [members]) fun n _ _ => ?_
    simp [members]
  rw [hnumbers]
  exact List.nodup_range

/-! ### What persists through a run -/

namespace Persistent

variable {plan : Plan} {P : List Member → Project → Prop} (hP : Persistent plan P)
  {before batch after : List Member} {m : Member} {p : Project}

include hP

theorem takeTurn (number : Nat) (h : P (before ++ batch ++ after) p) :
    P (before ++ (Run.takeTurn plan number batch p).1 ++ after) (Run.takeTurn plan number batch p).2 ∧
      (Run.takeTurn plan number batch p).1.map Member.job = batch.map Member.job := by
  -- the members that are passed over go to those before the batch
  induction batch generalizing before with
  | nil => exact ⟨h, rfl⟩
  | cons m rest ih =>
      rw [Run.takeTurn]
      split
      · rw [List.append_assoc, List.cons_append] at h
        have hnext := hP.step h
        rw [← List.cons_append, ← List.append_assoc] at hnext
        exact ⟨hnext, rfl⟩
      · have hrest : P ((before ++ [m]) ++ rest ++ after) p := by
          rwa [List.append_assoc before, List.singleton_append]
        obtain ⟨hnext, hjobs⟩ := ih hrest
        rw [List.append_assoc before, List.singleton_append] at hnext
        exact ⟨hnext, congrArg (m.job :: ·) hjobs⟩

theorem takeTurns (turns : List Nat) (h : P (before ++ batch ++ after) p) :
    P (before ++ (Run.takeTurns plan turns batch p).1 ++ after) (Run.takeTurns plan turns batch p).2 ∧
      (Run.takeTurns plan turns batch p).1.map Member.job = batch.map Member.job := by
  induction turns generalizing batch p with
  | nil => exact ⟨h, rfl⟩
  | cons number turns ih =>
      obtain ⟨hnext, hjobs⟩ := hP.takeTurn number h
      obtain ⟨hend, hjobs'⟩ := ih hnext
      exact ⟨hend, hjobs'.trans hjobs⟩

/-- To do the rest of a job in one go is to take steps until it is done. -/
theorem finish (h : P (before ++ m :: after) p) :
    ∃ s : Progress, s.stage.finished = true ∧ (m.progress.finish plan m.job p).1 = s.outcome ∧
      P (before ++ { m with progress := s } :: after) (m.progress.finish plan m.job p).2 := by
  -- the induction is on the steps that are left, of which each step takes one away
  induction hleft : m.progress.stage.left plan m.job using Nat.strongRecOn
    generalizing m p with
  | ind left ih =>
      by_cases hfinished : m.progress.stage.finished = true
      · rw [Progress.finish_of_finished hfinished]
        exact ⟨m.progress, hfinished, rfl, h⟩
      · have hne : m.progress.stage.left plan m.job ≠ 0 :=
          fun hzero => hfinished (Stage.finished_of_left hzero)
        have hof := hP.of h m (List.mem_append_right _ List.mem_cons_self)
        have hless : (m.stepped plan p).progress.stage.left plan m.job <
            m.progress.stage.left plan m.job :=
          Nat.lt_of_le_of_lt (Progress.stage_step p hof).1 (Nat.sub_one_lt hne)
        obtain ⟨s, hs, houtcome, hend⟩ := ih _ (hleft ▸ hless) (hP.step h) rfl
        rw [← Progress.finish_step]
        exact ⟨s, hs, houtcome, hend⟩

theorem finishAll (h : P (before ++ batch ++ after) p) :
    ∃ done, Done batch done ∧ P (before ++ done ++ after) (Run.finishAll plan batch p).2 ∧
      (Run.finishAll plan batch p).1 = done.map fun m => (m.job, m.progress.outcome) := by
  induction batch generalizing before p with
  | nil => exact ⟨[], .nil, h, rfl⟩
  | cons m rest ih =>
      rw [List.append_assoc, List.cons_append] at h
      obtain ⟨s, hs, houtcome, hnext⟩ := hP.finish h
      have hrest : P ((before ++ [{ m with progress := s }]) ++ rest ++ after)
          (m.progress.finish plan m.job p).2 := by
        rwa [List.append_assoc before, List.singleton_append, List.append_assoc, List.cons_append]
      obtain ⟨done, hdone, hend, hfound⟩ := ih hrest
      rw [List.append_assoc before, List.singleton_append] at hend
      refine ⟨{ m with progress := s } :: done, ⟨congrArg (m.job :: ·) hdone.jobs,
        List.forall_mem_cons.mpr ⟨hs, hdone.finished⟩⟩, hend, ?_⟩
      rw [Run.finishAll, List.map_cons, ← houtcome, ← hfound]

theorem generateBatch (schedule : Schedule) (h : P (before ++ batch ++ after) p) :
    ∃ done, Done batch done ∧ P (before ++ done ++ after) (Run.generateBatch schedule plan batch p).2 ∧
      (Run.generateBatch schedule plan batch p).1 = done.flatMap Member.units := by
  obtain ⟨hturns, hjobs⟩ := hP.takeTurns schedule.turns h
  obtain ⟨done, hdone, hend, hfound⟩ := hP.finishAll hturns
  refine ⟨done, ⟨hdone.jobs.trans hjobs, hdone.finished⟩,
    hP.told (agrees_tellOutcomes _ _) hend, ?_⟩
  rw [Run.generateBatch]
  dsimp only
  rw [hfound, List.flatMap_map]
  rfl

theorem generateBatches (schedule : Schedule) {parts : List (List Member)}
    (h : P (before ++ parts.flatten) p) :
    ∃ done, Done parts.flatten done ∧ P (before ++ done) (Run.generateBatches schedule plan parts p).2 ∧
      (Run.generateBatches schedule plan parts p).1 = done.flatMap Member.units := by
  induction parts generalizing before p with
  | nil => exact ⟨[], .nil, h, rfl⟩
  | cons batch parts ih =>
      rw [List.flatten_cons, ← List.append_assoc] at h
      obtain ⟨done, hdone, hnext, hunits⟩ := hP.generateBatch schedule h
      obtain ⟨more, hmore, hend, hunits'⟩ := ih hnext
      refine ⟨done ++ more, hdone.append hmore, List.append_assoc before done more ▸ hend, ?_⟩
      rw [Run.generateBatches, List.flatMap_append, ← hunits, ← hunits']

/-- The units of a run are those of its jobs in their order, when all of them are done. -/
theorem generateJobs (schedule : Schedule) {jobs : List Job} (h : P (members jobs) p) :
    ∃ done, Done (members jobs) done ∧ P done (Run.generateJobs schedule plan jobs p).2 ∧
      (Run.generateJobs schedule plan jobs p).1 = done.flatMap Member.units := by
  let size := ((batchSize? jobs.length none schedule.processors).getD 1).toNat
  have hparts := flatten_batches size (members jobs)
  have hstart : P ([] ++ (batches size (members jobs)).flatten) p := hparts.symm ▸ h
  obtain ⟨done, hdone, hend, hunits⟩ := hP.generateBatches schedule hstart
  exact ⟨done, hparts ▸ hdone, hend, hunits⟩

end Persistent

/-! ### What a job can come to -/

/-- The job can come to be so far, whatever project it finds at each of its steps. -/
inductive Job.Reaches (plan : Plan) (job : Job) : Progress → Prop where
  | fresh : job.Reaches plan {}
  | step {s : Progress} (h : job.Reaches plan s) (project : Project) :
      job.Reaches plan (s.step plan job project).1

theorem Job.Reaches.of {plan : Plan} {job : Job} {s : Progress} (h : job.Reaches plan s) :
    s.stage.Of plan job := by
  induction h with
  | fresh => trivial
  | step _ project ih => exact (Progress.stage_step project ih).2

/-- All results carry the name of the feature. -/
def Labelled (feature : String) (outcome : Except Failure (List UnitResult)) : Prop :=
  ∀ results, outcome = .ok results → ∀ unit ∈ results, unit.feature = feature

section Labelled

variable {plan : Plan} {site : Site} {project : Project}

theorem labelled_ok {feature : String} {results : List UnitResult}
    (h : ∀ unit ∈ results, unit.feature = feature) : Labelled feature (.ok results) :=
  fun _ heq => Except.ok.inj heq ▸ h

theorem labelled_singleton {feature : String} {unit : UnitResult} (h : unit.feature = feature) :
    Labelled feature (.ok [unit]) :=
  labelled_ok (List.forall_mem_singleton.mpr h)

theorem labelled_error (feature : String) (failure : Failure) :
    Labelled feature (.error failure) :=
  nofun

theorem ApiUnit.labelled_generate (plan : Plan) (site : Site) (name : String) (raw : Json)
    (memory : Memory) (project : Project) :
    Labelled site.feature.name
      ((ApiUnit.generate plan site name raw memory project).1.map fun result => [result]) := by
  rw [ApiUnit.generate]
  generalize (ApiUnit.task plan site name raw).run.run { project, memory } = found
  obtain ⟨outcome, w⟩ := found
  cases outcome with
  | ok _ => exact labelled_singleton rfl
  | error failure =>
      dsimp only
      split
      · exact labelled_singleton rfl
      · exact labelled_error _ _

theorem PageUnits.labelled_prune (plan : Plan) (site : Site) (project : Project) :
    Labelled site.feature.name (PageUnits.prune plan site project).1 := by
  intro results h
  unfold PageUnits.prune at h
  dsimp only at h
  generalize PageUnits.pruneEach plan.mode site.page.apiNames
    ((PageUnits.aggregatePaths site).map site.directory.child) project.disk = pruned at h
  obtain ⟨files, outcome, disk⟩ := pruned
  dsimp only at h
  split at h
  · obtain rfl := Except.ok.inj h
    split
    · exact List.forall_mem_nil _
    · exact List.forall_mem_singleton.mpr rfl
  · obtain rfl := Except.ok.inj h
    exact List.forall_mem_singleton.mpr rfl
  · contradiction

theorem PageUnits.labelled_close (plan : Plan) (site : Site) (project : Project) :
    Labelled site.feature.name (PageUnits.close plan site project).1 := by
  rw [PageUnits.close]
  split
  · exact PageUnits.labelled_prune plan site project
  · exact labelled_ok (List.forall_mem_nil _)

theorem PageUnits.labelled_refused (plan : Plan)
    (h : ¬ PageUnits.accepts site project.disk = true) :
    Labelled site.feature.name (PageUnits.generate plan site project).1 := by
  unfold PageUnits.generate
  cases hdirectory : project.disk.isDirectory site.directory with
  | error e => exact labelled_error _ _
  | ok found =>
      cases found with
      | false => exact labelled_singleton rfl
      | true =>
          dsimp only
          rw [if_neg (PageUnits.not_isValid_of_not_accepts h hdirectory)]
          exact labelled_singleton rfl

theorem Progress.labelled_next {feature : String} {s : Progress} (stage : Stage)
    {outcome : Except Failure (List UnitResult)} (hs : ∀ unit ∈ s.results, unit.feature = feature)
    (houtcome : Labelled feature outcome) :
    ∀ unit ∈ (s.next stage outcome).results, unit.feature = feature := by
  cases outcome with
  | error failure => exact hs
  | ok results => exact List.forall_mem_append.mpr ⟨hs, houtcome results rfl⟩

/-- A job has results of its own feature only. -/
theorem Job.Reaches.labelled {job : Job} {s : Progress} (h : job.Reaches plan s) :
    ∀ unit ∈ s.results, unit.feature = job.feature.name := by
  induction h with
  | fresh => exact List.forall_mem_nil _
  | @step s _ project ih =>
      obtain ⟨stage, results⟩ := s
      cases stage with
      | fresh => exact ih
      | failed failure => exact ih
      | between pages =>
          cases pages with
          | nil => exact ih
          | cons page pages =>
              by_cases haccepts : PageUnits.accepts (job.site page) project.disk = true
              · rw [Progress.step_of_accepts rfl haccepts]
                exact ih
              · rw [Progress.step_of_not_accepts rfl haccepts]
                exact Progress.labelled_next _ ih (PageUnits.labelled_refused plan haccepts)
      | within page apis memory pages =>
          cases apis with
          | nil =>
              rw [Progress.step_of_no_apis rfl]
              exact Progress.labelled_next _ ih (PageUnits.labelled_close plan _ project)
          | cons entry apis =>
              obtain ⟨name, raw⟩ := entry
              rw [Progress.step_of_api rfl]
              exact Progress.labelled_next _ ih (ApiUnit.labelled_generate plan _ name raw memory project)

/-- The units of a job are of its feature, those of a feature that was given up as well. -/
theorem Job.Reaches.labelled_units {job : Job} {s : Progress} (h : job.Reaches plan s) :
    ∀ unit ∈ job.unitsOf s.outcome, unit.feature = job.feature.name := by
  have hresults := h.labelled
  rw [Progress.outcome]
  split
  · exact List.forall_mem_singleton.mpr rfl
  · exact hresults

end Labelled

theorem persistent_reaches (plan : Plan) :
    Persistent plan fun ms _ => ∀ m ∈ ms, m.job.Reaches plan m.progress where
  step {before m after p} h := by
    rw [List.forall_mem_append, List.forall_mem_cons] at h ⊢
    exact ⟨h.1, .step h.2.1 p, h.2.2⟩
  told _ h := h
  of h m hm := (h m hm).of

/-! ### Turns enough -/

section Turns

variable {plan : Plan} {batch : List Member} {p : Project}

theorem map_number_takeTurn (number : Nat) :
    (takeTurn plan number batch p).1.map Member.number = batch.map Member.number := by
  induction batch with
  | nil => rfl
  | cons m rest ih =>
      rw [takeTurn]
      split
      · rfl
      · exact congrArg (m.number :: ·) ih

/-- What is left of a member after a turn. -/
theorem left_takeTurn {number : Nat} (hnumbers : (batch.map Member.number).Nodup)
    (hof : ∀ m ∈ batch, m.progress.stage.Of plan m.job) :
    ∀ m ∈ (takeTurn plan number batch p).1, m.progress.stage.Of plan m.job ∧
      ∃ m₀ ∈ batch, m.number = m₀.number ∧ m.job = m₀.job ∧
        m.progress.stage.left plan m.job ≤
          m₀.progress.stage.left plan m₀.job - if m.number = number then 1 else 0 := by
  induction batch with
  | nil => exact List.forall_mem_nil _
  | cons m rest ih =>
      obtain ⟨hfirst, hrest⟩ := List.nodup_cons.mp hnumbers
      obtain ⟨hm, hofs⟩ := List.forall_mem_cons.mp hof
      rw [takeTurn]
      split
      · rename_i hnumber
        obtain ⟨hleft, hof'⟩ := Progress.stage_step p hm
        refine List.forall_mem_cons.mpr ⟨⟨hof', m, List.mem_cons_self, rfl, rfl, ?_⟩, ?_⟩
        · rwa [if_pos hnumber]
        · intro other hother
          have hne : other.number ≠ number := fun heq =>
            hfirst (List.mem_map.mpr ⟨other, hother, heq.trans hnumber.symm⟩)
          refine ⟨hofs other hother, other, List.mem_cons_of_mem _ hother, rfl, rfl, ?_⟩
          rw [if_neg hne]
          exact Nat.le_refl _
      · rename_i hnumber
        refine List.forall_mem_cons.mpr ⟨⟨hm, m, List.mem_cons_self, rfl, rfl, ?_⟩, ?_⟩
        · rw [if_neg hnumber]
          exact Nat.le_refl _
        · intro other hother
          obtain ⟨hof', m₀, hm₀, hleft⟩ := ih hrest hofs other hother
          exact ⟨hof', m₀, List.mem_cons_of_mem _ hm₀, hleft⟩

/-- A member with as many turns as it has steps left is done. -/
theorem finished_takeTurns {turns : List Nat} (hnumbers : (batch.map Member.number).Nodup)
    (hof : ∀ m ∈ batch, m.progress.stage.Of plan m.job)
    (henough : ∀ m ∈ batch, m.progress.stage.left plan m.job ≤ turns.count m.number) :
    ∀ m ∈ (takeTurns plan turns batch p).1, m.progress.stage.finished = true := by
  induction turns generalizing batch p with
  | nil => exact fun m hm => Stage.finished_of_left (Nat.le_zero.mp (henough m hm))
  | cons number turns ih =>
      -- a turn costs the member that has its number one step, and the others nothing
      refine ih (by rwa [map_number_takeTurn]) (fun m hm => (left_takeTurn hnumbers hof m hm).1)
        fun m hm => ?_
      obtain ⟨-, m₀, hm₀, hnumber, -, hleft⟩ := left_takeTurn hnumbers hof m hm
      have hcount := henough m₀ hm₀
      rw [← hnumber, List.count_cons] at hcount
      simp only [beq_iff_eq, eq_comm (a := number)] at hcount
      omega

end Turns

end DartScaffold.Run
