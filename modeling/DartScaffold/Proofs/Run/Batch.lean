import DartScaffold.Proofs.Decimal.Range
import DartScaffold.Proofs.Run.Interleaving
import DartScaffold.Run.Generation

/-!
Whole runs, batch by batch. Below the limit of floating-point numbers every number of processors makes a
size of at least one, and at every size the batches are the jobs in their order. Each job gives what it has
come to by steps of its own, whatever the other jobs made of the disk in between; where none of them is in
another's way that is what it gives alone, so neither the processors nor the order of the steps make a
difference to what a run gives.
-/

namespace DartScaffold.Run

open Disk (SameContent)
open Job (Independent)

/-! ### The size of a batch -/

/-- There is a share of the processors below the limit of floating-point numbers. -/
theorem share?_eq_none {quarters : Nat} (hquarters : quarters < 4) (cpus : Int) :
    share? quarters cpus = none ↔ Binary64.limit ≤ cpus.natAbs := by
  rw [share?]
  obtain ⟨heq, hlimit⟩ | ⟨⟨m, e, heq, hm, he⟩, hlimit⟩ := Binary64.ofInt_cases cpus
  · rw [heq]
    exact iff_of_true rfl hlimit
  · obtain ⟨m', e', hscaled⟩ := Binary64.scale_finite (cpus < 0) hquarters hm he
    rw [heq, hscaled]
    exact iff_of_false nofun (not_le.mpr hlimit)

theorem sizeOn?_eq_none (cpus count : Int) :
    sizeOn? cpus count = none ↔ count ≤ 50 ∧ Binary64.limit ≤ cpus.natAbs := by
  have hthree : share? 3 cpus = none ↔ _ := share?_eq_none (by decide) cpus
  have htwo : share? 2 cpus = none ↔ _ := share?_eq_none (by decide) cpus
  rw [sizeOn?]
  split_ifs
  · exact iff_of_false nofun fun h => by omega
  · exact iff_of_false nofun fun h => by omega
  · rw [Option.map_eq_none_iff, hthree]
    exact (and_iff_right (by omega)).symm
  · rw [Option.map_eq_none_iff, htwo]
    exact (and_iff_right (by omega)).symm

theorem one_le_of_sizeOn? {cpus count size : Int} (h : sizeOn? cpus count = some size) :
    1 ≤ size := by
  rw [sizeOn?] at h
  split_ifs at h
  · obtain rfl := Option.some.inj h
    omega
  · obtain rfl := Option.some.inj h
    omega
  · obtain ⟨share, -, rfl⟩ := Option.map_eq_some_iff.mp h
    omega
  · obtain ⟨share, -, rfl⟩ := Option.map_eq_some_iff.mp h
    omega

theorem exists_batchSize? (count : Int) {given : Option Int} {machine : Option Nat}
    (h : (processorsOf given machine).natAbs < Binary64.limit) :
    ∃ size : Nat, batchSize? count given machine = some (size : Int) ∧ 1 ≤ size := by
  cases hsize : batchSize? count given machine with
  | none => exact absurd ((sizeOn?_eq_none _ count).mp hsize).2 (not_le.mpr h)
  | some size =>
      have hone : 1 ≤ size := one_le_of_sizeOn? hsize
      obtain ⟨n, rfl⟩ := Int.eq_ofNat_of_zero_le (Int.le_trans Int.one_nonneg hone)
      exact ⟨n, rfl, Int.ofNat_le.mp hone⟩

/-! ### The units of a run -/

section Jobs

variable {plan : Plan} {jobs : List Job} {start : Project}

/-- The parts that are generated one after the other. -/
theorem generateJobs_eq (schedule : Schedule) {size : Nat}
    (hsize : batchSize? jobs.length none schedule.processors = some (size : Int)) :
    generateJobs schedule plan jobs start =
      generateBatches schedule plan (batches size (members jobs)) start := by
  rw [generateJobs, hsize]
  rfl

/-- Each job gives what it has come to, in its place and under the name of its feature. -/
theorem generateJobs_reaches (schedule : Schedule) (plan : Plan) (jobs : List Job) (start : Project) :
    ∃ done : List Member, done.map Member.job = jobs ∧
      (∀ m ∈ done, m.job.Reaches plan m.progress ∧ m.progress.stage.finished = true ∧
        ∀ unit ∈ m.job.unitsOf m.progress.outcome, unit.feature = m.job.feature.name) ∧
      (generateJobs schedule plan jobs start).1 = done.flatMap Member.units := by
  have hfresh : ∀ m ∈ members jobs, m.job.Reaches plan m.progress :=
    forall_mem_members fun _ _ _ => .fresh
  obtain ⟨done, hdone, hreaches, hunits⟩ :=
    (persistent_reaches plan).generateJobs (p := start) schedule hfresh
  exact ⟨done, hdone.jobs.trans (map_job_members jobs),
    fun m hm => ⟨hreaches m hm, hdone.finished m hm, (hreaches m hm).labelled_units⟩, hunits⟩

/-- Where no job is in another's way, the run has made what the jobs make alone. -/
theorem exists_made (hd : start.disk.Standing) (h : jobs.Pairwise (Independent plan start.disk))
    (schedule : Schedule) :
    ∃ done, Done (members jobs) done ∧ Made plan start done (generateJobs schedule plan jobs start).2 ∧
      (generateJobs schedule plan jobs start).1 = done.flatMap Member.units := by
  have hfresh : Made plan start (members jobs) start :=
    .fresh hd (forall_mem_members fun _ _ _ => rfl)
  obtain ⟨done, hdone, ⟨-, hmade⟩, hunits⟩ := (persistent_made hd).generateJobs schedule
    ⟨(map_job_members jobs).symm ▸ h, hfresh⟩
  exact ⟨done, hdone, hmade, hunits⟩

theorem generateJobs_of_independent (hd : start.disk.Standing)
    (h : jobs.Pairwise (Independent plan start.disk)) (schedule : Schedule) :
    (generateJobs schedule plan jobs start).1 =
        jobs.flatMap fun job => job.unitsOf (job.generate plan start).1 := by
  obtain ⟨done, hdone, hmade, hunits⟩ := exists_made hd h schedule
  have hjobs := hdone.jobs.trans (map_job_members jobs)
  rw [hunits, ← hjobs, List.flatMap_map]
  refine List.flatMap_congr fun m hm => ?_
  rw [Member.units, hmade.outcome hdone.finished m hm]

theorem sameContent_generateJobs (hd : start.disk.Standing)
    (h : jobs.Pairwise (Independent plan start.disk)) (schedule schedule' : Schedule) :
    SameContent (generateJobs schedule plan jobs start).2.disk
      (generateJobs schedule' plan jobs start).2.disk := by
  obtain ⟨done, hdone, hmade, -⟩ := exists_made hd h schedule
  obtain ⟨done', hdone', hmade', -⟩ := exists_made hd h schedule'
  exact hmade.sameContent hmade' (hdone'.jobs.trans hdone.jobs.symm) hdone.finished hdone'.finished

end Jobs

/-! ### Whole runs -/

theorem disk_namedProject (plan : Plan) (p : Project) : (namedProject plan p).2.disk = p.disk := by
  obtain ⟨log, hexec⟩ := Company.exec_projectName plan { project := p }
  exact congrArg (fun result : _ × Workspace => result.2.project.disk) hexec

theorem disk_foldl_tell (texts : List String) (p : Project) :
    (texts.foldl (fun project text => project.tell (Log.warning .generation text)) p).disk = p.disk := by
  induction texts generalizing p with
  | nil => rfl
  | cons text texts ih => exact ih _

/-- A run gives nothing, or a report of the units of its jobs. -/
theorem generate_cases (plan : Plan) (disk : Disk) :
    (∃ failure p, ∀ schedule, generate schedule plan disk = (.error failure, p)) ∨
      ∃ (files : List ConfigFile) (start : Project) (report : Report),
        configFiles plan disk = .ok files ∧ start.disk = disk ∧ report.success = true ∧
        report.units = [] ∧
        report.features = ((selectJobs plan files).map fun job => job.feature.name) ∧
        ∀ schedule, generate schedule plan disk =
          (.ok (report.extend (generateJobs schedule plan (selectJobs plan files) start).1),
            (generateJobs schedule plan (selectJobs plan files) start).2) := by
  simp only [generate]
  cases configFiles plan disk with
  | error failure => exact .inl ⟨failure, _, fun _ => rfl⟩
  | ok files =>
      have hdisk := disk_namedProject plan (.start plan disk)
      generalize namedProject plan (.start plan disk) = found at hdisk
      obtain ⟨failure | name, named⟩ := found
      · exact .inl ⟨failure, named, fun _ => rfl⟩
      · exact .inr ⟨files, _, { project := name, root := _, features := _, warnings := _ }, rfl,
          (disk_foldl_tell _ named).trans hdisk, rfl, rfl, rfl, fun _ => rfl⟩

theorem Report.success_extend (report : Report) (units : List UnitResult)
    (hsuccess : report.success = true) (hunits : report.units = []) :
    (report.extend units).units = units ∧
      ((report.extend units).success = false ↔ ∃ unit ∈ units, unit.succeeded = false) := by
  rw [Report.extend, hsuccess, hunits]
  simp

/-- Batching loses and reorders nothing. Below the limit of floating-point numbers every number of
processors makes a size of at least one, at which the batches are the jobs in their order. The units are
those that each job has come to, or its one failed unit, under the name of its feature and in the order of
the jobs, whatever the other jobs did to the disk. Where no job is in another's way they are what the job gives alone, and units and files
are the same with any other number of processors and any other order of the steps. A run succeeds unless
one of its units failed. -/
theorem batching_exact (schedule : Schedule) (plan : Plan)
    (hprocessors : (processorsOf none schedule.processors).natAbs < Binary64.limit) :
    (∀ (count : Int) (given : Option Int) (machine : Option Nat),
      (processorsOf given machine).natAbs < Binary64.limit →
        ∃ size : Nat, batchSize? count given machine = some (size : Int) ∧ 1 ≤ size) ∧
    (∀ (jobs : List Job) (start : Project), ∃ size : Nat,
      batchSize? jobs.length none schedule.processors = some (size : Int) ∧ 1 ≤ size ∧
      (batches size (members jobs)).flatten.map Member.job = jobs ∧
      (∀ batch ∈ batches size (members jobs), batch ≠ [] ∧ batch.length ≤ size) ∧
      generateJobs schedule plan jobs start =
        generateBatches schedule plan (batches size (members jobs)) start) ∧
    (∀ (jobs : List Job) (start : Project), ∃ done : List Member, done.map Member.job = jobs ∧
      (∀ m ∈ done, m.job.Reaches plan m.progress ∧ m.progress.stage.finished = true ∧
        ∀ unit ∈ m.job.unitsOf m.progress.outcome, unit.feature = m.job.feature.name) ∧
      (generateJobs schedule plan jobs start).1 =
        done.flatMap fun m => m.job.unitsOf m.progress.outcome) ∧
    (∀ (jobs : List Job) (start : Project), start.disk.Standing →
      jobs.Pairwise (Independent plan start.disk) →
      ((generateJobs schedule plan jobs start).1 =
          jobs.flatMap fun job => job.unitsOf (job.generate plan start).1) ∧
        ∀ schedule', SameContent (generateJobs schedule plan jobs start).2.disk
          (generateJobs schedule' plan jobs start).2.disk) ∧
    (∀ disk : Disk, disk.Standing →
      (∀ files, configFiles plan disk = .ok files →
        (selectJobs plan files).Pairwise (Independent plan disk)) →
      ∀ schedule', (generate schedule plan disk).1 = (generate schedule' plan disk).1 ∧
        SameContent (generate schedule plan disk).2.disk (generate schedule' plan disk).2.disk) ∧
    (∀ disk report, (generate schedule plan disk).1 = .ok report →
      (∃ files start, configFiles plan disk = .ok files ∧
        report.features = ((selectJobs plan files).map fun job => job.feature.name) ∧
        report.units = (generateJobs schedule plan (selectJobs plan files) start).1) ∧
      (report.success = false ↔ ∃ unit ∈ report.units, unit.succeeded = false)) := by
  refine ⟨fun count given machine h => exists_batchSize? count h, fun jobs start => ?_,
    generateJobs_reaches schedule plan, fun jobs start hd h => ?_, fun disk hd h schedule' => ?_,
    fun disk report hreport => ?_⟩
  · obtain ⟨size, hsize, hone⟩ := exists_batchSize? jobs.length hprocessors
    refine ⟨size, hsize, hone, ?_, batches_bounds hone _, generateJobs_eq schedule hsize⟩
    rw [flatten_batches, map_job_members]
  · exact ⟨generateJobs_of_independent hd h schedule, sameContent_generateJobs hd h schedule⟩
  · obtain ⟨failure, p, hall⟩ | ⟨files, start, report, hfiles, hdisk, -, -, -, hall⟩ :=
      generate_cases plan disk
    · rw [hall, hall]
      exact ⟨rfl, .refl _⟩
    · -- the jobs begin on the disk of the run: looking up the name of the project writes nothing
      subst hdisk
      have hjobs := h files hfiles
      rw [hall, hall, generateJobs_of_independent hd hjobs, generateJobs_of_independent hd hjobs]
      exact ⟨rfl, sameContent_generateJobs hd hjobs schedule schedule'⟩
  · obtain ⟨failure, p, hall⟩ | ⟨files, start, fresh, hfiles, -, hsuccess, hempty, hfeatures, hall⟩ :=
      generate_cases plan disk
    · rw [hall] at hreport
      exact nomatch hreport
    · rw [hall] at hreport
      obtain rfl := Except.ok.inj hreport
      obtain ⟨hunits, hfailed⟩ := fresh.success_extend
        (generateJobs schedule plan (selectJobs plan files) start).1 hsuccess hempty
      exact ⟨⟨files, start, hfiles, hfeatures, hunits⟩, hunits.symm ▸ hfailed⟩

/-- Eight processors and the two neighbours, whose steps are mixed. -/
theorem batching_exact_neighbours :
    let jobs := [neighbour "a", neighbour "b"]
    let schedule : Schedule := { processors := some 8, turns := [0, 1, 1, 0, 0, 1, 0, 1] }
    (processorsOf none schedule.processors).natAbs < Binary64.limit ∧
      (processorsOf (some 0) (some 6)).natAbs < Binary64.limit ∧
      (∃ size : Nat, batchSize? 60 (some 0) (some 6) = some (size : Int) ∧ 1 ≤ size) ∧
      neighbourhood.disk.Standing ∧ jobs.Pairwise (Independent {} neighbourhood.disk) ∧
      ((generateJobs schedule {} jobs neighbourhood).1 =
        jobs.flatMap fun job => job.unitsOf (job.generate {} neighbourhood).1) ∧
      SameContent (generateJobs schedule {} jobs neighbourhood).2.disk
        (generateJobs { processors := some 1 } {} jobs neighbourhood).2.disk := by
  intro jobs schedule
  have height : (processorsOf none schedule.processors).natAbs < Binary64.limit := by decide +kernel
  have hsix : (processorsOf (some 0) (some 6)).natAbs < Binary64.limit := by decide +kernel
  have hstanding : neighbourhood.disk.Standing := Disk.standing_of_entries (by decide) (by decide)
  have hindependent : jobs.Pairwise (Independent {} neighbourhood.disk) :=
    List.pairwise_pair.mpr
      ⟨spares_neighbour ("b", "a") (by decide), spares_neighbour ("a", "b") (by decide)⟩
  obtain ⟨hsize, -, -, halone, -, -⟩ := batching_exact schedule {} height
  obtain ⟨hunits, hsame⟩ := halone jobs neighbourhood hstanding hindependent
  exact ⟨height, hsix, hsize 60 (some 0) (some 6) hsix, hstanding, hindependent, hunits,
    hsame { processors := some 1 }⟩

/-- Two features, of which the first makes the directory in which the page of the second belongs. -/
def sharers : List Job :=
  [{ feature := { name := "auth", directory := "/work/auth"
                  pages := [{ name := "login", apis := [("a", .obj [("method", .str "get"),
                    ("path", .str "/a"), ("response", .str "user.json"),
                    ("dir_extra", .str "shop/lib/cart/models")])] }] }
     settings := { layers := false } },
   { feature := { name := "shop", directory := "/work/shop", pages := [{ name := "cart" }] }
     settings := { layers := false } }]

def sharedDisk : Disk :=
  { home := ["work"]
    entries := [(["work"], .directory), (["work", "user.json"], .file "\x7b\x7d".toUTF8)] ++
      [["auth"], ["auth", "lib"], ["auth", "lib", "login"], ["shop"]].map
        fun names => ("work" :: names, .directory) }

/-- There is no size for more processors than floating-point numbers reach. And a feature that needs what
another one makes finds it where one runs after the other, and may miss it where they run at the same
time. -/
theorem exists_size_that_matters :
    (¬ ∃ size, batchSize? 5 (some (2 ^ 1024)) none = some size ∧ 1 ≤ size) ∧
      (generateJobs { processors := some 1, turns := [1, 1] } {} sharers
        (.start {} sharedDisk)).1.map UnitResult.succeeded = [true] ∧
      (generateJobs { processors := some 8, turns := [1, 1] } {} sharers
        (.start {} sharedDisk)).1.map UnitResult.succeeded = [true, false] := by
  refine ⟨?_, ?_, ?_⟩
  · have hnone : batchSize? 5 (some (2 ^ 1024)) none = none := by decide +kernel
    rintro ⟨size, hsize, -⟩
    rw [hnone] at hsize
    exact nomatch hsize
  · decide +kernel
  · decide +kernel

end DartScaffold.Run
