import DartScaffold.Proofs.Run.Company
import DartScaffold.Proofs.Run.Crew
import DartScaffold.Proofs.Run.Page

/-!
Jobs at the same time. When none of them writes a file that another reads or writes, their steps can be
taken in any order: each job gives what it gives alone, and the disk is the one that they have made beside
each other, of which there is one only. What every step keeps is `Made`: each job is as far as some number
of steps takes it alone, and the project is what they make of it together. So every order of the steps ends
like one job after the other.
-/

namespace DartScaffold.Run

open Aggregate (FileKind)
open Disk (Beside Location Ours SameContent)

/-! ### What a job reads and writes -/

/-- What the unit of an API reads. -/
def Site.lookups (plan : Plan) (site : Site) (api : Api) : List Location :=
  ApiUnit.samplePlaces plan api ++ if site.wantsLayers plan then [projectPlace plan] else []

namespace Job

variable (plan : Plan) (job : Job)

def sites : List Site :=
  (job.pages plan).map job.site

/-- Where the job writes. -/
def places : List Location :=
  (job.sites plan).flatMap (Site.places plan)

/-- Where the job reads. -/
def readings : List Location :=
  (job.sites plan).flatMap fun site => site.accepted.flatMap (site.lookups plan)

/-- The job asks for the name of the project. -/
def AsksName : Prop :=
  ∃ site ∈ job.sites plan, site.wantsLayers plan = true ∧ site.accepted ≠ []

/-- Writes to `theirs` are to no file that `job` reads or writes. To read a location is to look up all that
its walk comes by, so no directory that is made for `theirs` is where a page of `job` belongs, or is left
by `..` on the way of a file; but one that both need can be made by either. -/
structure Spares (plan : Plan) (d : Disk) (theirs : List Location) (job : Job) : Prop where
  apart : ∀ l ∈ job.places plan, ∀ key ∈ d.landings l, key ∉ d.landingsOf theirs
  clear : ∀ l ∈ job.places plan ++ job.readings plan, d.Clear theirs l
  pages : ∀ site ∈ job.sites plan, d.Untouched theirs site.directory

/-- Neither job is in the way of the other. -/
structure Independent (plan : Plan) (d : Disk) (job other : Job) : Prop where
  spared : Spares plan d (other.places plan) job
  spares : Spares plan d (job.places plan) other

/-- Where the jobs write. -/
def allPlaces (plan : Plan) (jobs : List Job) : List Location :=
  jobs.flatMap (Job.places plan)

variable {plan job}

theorem Independent.symm {d : Disk} {other : Job} (h : Independent plan d job other) :
    Independent plan d other job :=
  ⟨h.spares, h.spared⟩

/-- A job that each spares is spared by all. -/
theorem Spares.all {d : Disk} {jobs : List Job}
    (h : ∀ other ∈ jobs, Spares plan d (other.places plan) job) :
    Spares plan d (allPlaces plan jobs) job where
  apart l hl key hkey hland := by
    obtain ⟨other, hother, hland⟩ := Disk.mem_landingsOf_flatMap.mp hland
    exact (h other hother).apart l hl key hkey hland
  clear l hl := Disk.clear_flatMap fun other hother => (h other hother).clear l hl
  pages site hsite := Disk.untouched_flatMap fun other hother => (h other hother).pages site hsite

theorem Spares.one {d : Disk} {other : Job} (h : Spares plan d (other.places plan) job) :
    Spares plan d (allPlaces plan [other]) job :=
  .all (List.forall_mem_singleton.mpr h)

theorem places_subset {site : Site} (h : site ∈ job.sites plan) : site.places plan ⊆ job.places plan :=
  fun _ hl => List.mem_flatMap.mpr ⟨site, h, hl⟩

theorem lookups_subset {site : Site} {api : Api} (h : site ∈ job.sites plan)
    (hapi : api ∈ site.accepted) : site.lookups plan api ⊆ job.readings plan :=
  fun _ hl => List.mem_flatMap.mpr ⟨site, h, List.mem_flatMap.mpr ⟨api, hapi, hl⟩⟩

theorem AsksName.projectPlace_mem (h : job.AsksName plan) : projectPlace plan ∈ job.readings plan := by
  obtain ⟨site, hsite, hwants, haccepted⟩ := h
  obtain ⟨api, hapi⟩ := List.exists_mem_of_ne_nil _ haccepted
  refine lookups_subset hsite hapi (List.mem_append_right _ ?_)
  rw [if_pos hwants]
  exact List.mem_singleton.mpr rfl

/-- Jobs in company of others. -/
def company (plan : Plan) (d : Disk) (ours theirs : List Job) (g : Disk)
    (names : String → String → Prop) : Company :=
  { start := d, ours := allPlaces plan ours, theirs := allPlaces plan theirs, other := g, names }

end Job

/-! ### A step in company -/

theorem Company.Shares.of_same {c : Company} {p p' q q' : Project} (h : c.Shares p p')
    (hdisk : q.disk = p.disk) (hname : q.name = p.name) (hdisk' : q'.disk = p'.disk)
    (hname' : q'.name = p'.name) : c.Shares q q' :=
  ⟨hdisk.symm ▸ hdisk'.symm ▸ h.disk, hname.symm ▸ hname'.symm ▸ h.name⟩

namespace PageUnits

variable {site : Site} {p : Project}

/-- A page that is not accepted leaves the disk and the name of the project as they are. -/
theorem generate_of_not_accepts (plan : Plan) (h : ¬ accepts site p.disk = true) :
    (generate plan site p).2.disk = p.disk ∧ (generate plan site p).2.name = p.name ∧
      ∀ p' : Project, p'.disk.isDirectory site.directory = p.disk.isDirectory site.directory →
        (generate plan site p').1 = (generate plan site p).1 := by
  unfold generate
  cases hdirectory : p.disk.isDirectory site.directory with
  | error e =>
      refine ⟨rfl, rfl, fun p' hsame => ?_⟩
      rw [hsame]
  | ok found =>
      cases found with
      | false =>
          refine ⟨rfl, rfl, fun p' hsame => ?_⟩
          rw [hsame]
          rfl
      | true =>
          have hinvalid := not_isValid_of_not_accepts h hdirectory
          dsimp only
          rw [if_neg hinvalid]
          refine ⟨rfl, rfl, fun p' hsame => ?_⟩
          rw [hsame]
          dsimp only
          rw [if_neg hinvalid]
          rfl

end PageUnits

namespace Job

variable {plan : Plan} {c : Company} {job : Job} {site : Site} {p p' : Project} {s : Progress}

theorem tellMissingPage_same (plan : Plan) (job : Job) (p : Project) :
    (job.tellMissingPage plan p).disk = p.disk ∧ (job.tellMissingPage plan p).name = p.name := by
  rw [tellMissingPage]
  split
  · split
    · exact ⟨rfl, rfl⟩
    · exact ⟨rfl, rfl⟩
  · exact ⟨rfl, rfl⟩

theorem Spares.ours (h : Spares plan c.start c.theirs job) (hours : job.places plan ⊆ c.ours)
    {l : Location} (hl : l ∈ job.places plan) : Ours c.start c.ours c.theirs l where
  mem := hours hl
  apart := h.apart l hl
  clear := h.clear l (List.mem_append_left _ hl)

theorem Spares.aggregate (h : Spares plan c.start c.theirs job) (hours : job.places plan ⊆ c.ours)
    (hsite : site ∈ job.sites plan) (kind : FileKind) :
    Ours c.start c.ours c.theirs (site.aggregate kind) :=
  h.ours hours (places_subset hsite (Site.aggregate_mem_places kind))

theorem Spares.welcomes (h : Spares plan c.start c.theirs job) (hours : job.places plan ⊆ c.ours)
    (hsite : site ∈ job.sites plan) {api : Api} (hapi : api ∈ site.accepted)
    (hname : job.AsksName plan → c.Undisturbed (fun _ => True) (Task.projectName plan)) :
    c.Welcomes plan site api where
  own _ hl := h.ours hours (places_subset hsite (Site.ownPlaces_subset hapi hl))
  shared := h.aggregate hours hsite
  samples l hl := h.clear l (List.mem_append_right _ (lookups_subset hsite hapi
    (List.mem_append_left _ hl)))
  name hwants := hname ⟨site, hsite, hwants, List.ne_nil_of_mem hapi⟩

/-- In company a job takes the step that it takes alone. -/
theorem Spares.step (h : Spares plan c.start c.theirs job) (hours : job.places plan ⊆ c.ours)
    (hs : s.stage.Of plan job)
    (hname : job.AsksName plan → c.Undisturbed (fun _ => True) (Task.projectName plan))
    (hp : c.Shares p p') :
    (s.step plan job p').1 = (s.step plan job p).1 ∧
      c.Shares (s.step plan job p).2 (s.step plan job p').2 := by
  obtain ⟨stage, results⟩ := s
  cases stage with
  | failed failure => exact ⟨rfl, hp⟩
  | fresh =>
      obtain ⟨hdisk, hcalled⟩ := tellMissingPage_same plan job p
      obtain ⟨hdisk', hcalled'⟩ := tellMissingPage_same plan job p'
      exact ⟨rfl, hp.of_same hdisk hcalled hdisk' hcalled'⟩
  | between pages =>
      cases pages with
      | nil => exact ⟨rfl, hp⟩
      | cons page pages =>
          have hsite : job.site page ∈ job.sites plan :=
            List.mem_map_of_mem (List.cons_subset.mp hs).1
          have hdirectory : p'.disk.isDirectory (job.site page).directory =
              p.disk.isDirectory (job.site page).directory := by
            have hentry := hp.disk.entryAt (h.pages _ hsite)
            rw [Disk.isDirectory, Disk.isDirectory, Disk.holds, Disk.holds, hentry]
          have haccepts : PageUnits.accepts (job.site page) p'.disk =
              PageUnits.accepts (job.site page) p.disk := by
            rw [PageUnits.accepts, PageUnits.accepts, hdirectory]
          by_cases haccepted : PageUnits.accepts (job.site page) p.disk = true
          · rw [Progress.step_of_accepts rfl haccepted,
              Progress.step_of_accepts rfl (haccepts.trans haccepted)]
            exact ⟨rfl, hp⟩
          · have haccepted' : ¬ PageUnits.accepts (job.site page) p'.disk = true := by
              rwa [haccepts]
            rw [Progress.step_of_not_accepts rfl haccepted,
              Progress.step_of_not_accepts rfl haccepted']
            obtain ⟨hdisk, hcalled, hsame⟩ :=
              PageUnits.generate_of_not_accepts plan haccepted
            obtain ⟨hdisk', hcalled', -⟩ := PageUnits.generate_of_not_accepts plan haccepted'
            have hshares := hp.of_same hdisk hcalled hdisk' hcalled'
            dsimp only
            refine ⟨?_, hshares⟩
            rw [hsame p' hdirectory]
  | within page apis memory pages =>
      obtain ⟨hpage, hapis, -⟩ := hs
      have hsite : job.site page ∈ job.sites plan := List.mem_map_of_mem hpage
      cases apis with
      | nil =>
          rw [Progress.step_of_no_apis rfl, Progress.step_of_no_apis rfl]
          have hclosed : (PageUnits.close plan (job.site page) p').1 =
                (PageUnits.close plan (job.site page) p).1 ∧
              c.Shares (PageUnits.close plan (job.site page) p).2
                (PageUnits.close plan (job.site page) p').2 := by
            unfold PageUnits.close
            split
            · exact hp.prune (h.aggregate hours hsite)
            · exact ⟨rfl, hp⟩
          refine ⟨?_, hclosed.2⟩
          dsimp only
          rw [hclosed.1]
      | cons entry apis =>
          obtain ⟨name, raw⟩ := entry
          rw [Progress.step_of_api rfl, Progress.step_of_api rfl]
          obtain ⟨houtcome, hmemory, hproject⟩ := hp.generate memory fun api hapi =>
            h.welcomes hours hsite (Site.mem_accepted (hapis List.mem_cons_self) hapi) hname
          refine ⟨?_, hproject⟩
          dsimp only
          rw [houtcome, hmemory]

end Job

/-! ### Jobs on one project -/

/-- `z` is what the jobs of `ours` and of `theirs` made of `start` together, where `x` and `y` are what
either would have made of it alone. Jobs that do not ask for the name of the project leave it as it is. -/
structure Together (plan : Plan) (start : Project) (ours theirs : List Job) (x y z : Project) :
    Prop where
  disk : Beside start.disk (Job.allPlaces plan ours) (Job.allPlaces plan theirs) x.disk y.disk z.disk
  left : (∀ job ∈ theirs, ¬ job.AsksName plan) → z.name = x.name
  right : (∀ job ∈ ours, ¬ job.AsksName plan) → z.name = y.name
  named : (∃ job ∈ ours, job.AsksName plan) → (∃ job ∈ theirs, job.AsksName plan) →
    ∀ p ∈ [x, y, z], Named start.disk plan start.name p.name

/-- What a project is called by a name that was looked up, or is still to be. -/
theorem nameOn_eq_of_named {d e : Disk} {plan : Plan} {known name : String}
    (hnamed : Named d plan known name) (hsame : NamedAlike plan d e) :
    nameOn e plan name = nameOn d plan known := by
  by_cases hne : (name != "") = true
  · rw [nameOn_of_named hnamed hne, nameOn, if_pos hne]
  · obtain rfl : name = "" := by simpa using hne
    rw [nameOn_of_unnamed hnamed, nameOn, if_neg hne, hsame]

section Together

variable {plan : Plan} {start x y z : Project} {job other : Job} {ours theirs : List Job} {s : Progress}

theorem Together.refl (h : start.disk.Standing) (plan : Plan) (ours theirs : List Job) :
    Together plan start ours theirs start start start where
  disk := .refl h _ _
  left _ := rfl
  right _ := rfl
  named _ _ := by simp [Named]

theorem Together.symm (h : Together plan start ours theirs x y z) :
    Together plan start theirs ours y x z where
  disk := h.disk.symm
  left := h.right
  right := h.left
  named htheirs hours p hp := h.named hours htheirs p (by simp at hp ⊢; tauto)

theorem Together.told {z' : Project} (h : Together plan start ours theirs x y z) (hz : z.Agrees z') :
    Together plan start ours theirs x y z' where
  disk := hz.disk.symm ▸ h.disk
  left htheirs := hz.name.trans (h.left htheirs)
  right hours := hz.name.trans (h.right hours)
  named hours htheirs := by
    rw [List.forall_mem_cons, List.forall_mem_cons, List.forall_mem_singleton, hz.name]
    simpa using h.named hours htheirs

/-- What `x` and `z` are called, where jobs on both sides ask. -/
def BothNamed (plan : Plan) (start : Project) (x z : String) : Prop :=
  Named start.disk plan start.name x ∧ Named start.disk plan start.name z

/-- The file that names the project reads alike for a job that asks, with the others or without. -/
theorem Job.Spares.namedAlike {c : Company} {p p' : Project} (h : Spares plan c.start c.theirs job)
    (hasks : job.AsksName plan) (hshares : c.Shares p p') : NamedAlike plan p.disk p'.disk :=
  namedAlike_of_sameText (hshares.disk.home.trans hshares.disk.left.home.symm)
    (hshares.disk.sameText (h.clear _ (List.mem_append_right _ hasks.projectPlace_mem)))

/-- Where jobs on both sides ask for the name of the project, they are told what the disk says that they
began on. -/
theorem Job.Spares.undisturbed_projectName (hd : start.disk.Standing)
    (h : Spares plan start.disk (allPlaces plan theirs) job) (hjob : job.AsksName plan)
    (h' : Spares plan start.disk (allPlaces plan ours) other) (hother : other.AsksName plan)
    (y : Project) :
    (company plan start.disk ours theirs y.disk (BothNamed plan start)).Undisturbed (fun _ => True)
      (Task.projectName plan) := by
  have hclear : start.disk.Clear (allPlaces plan ours) (projectPlace plan) :=
    h'.clear _ (List.mem_append_right _ hother.projectPlace_mem)
  have halone : ∀ p p' : Project,
      (company plan start.disk ours theirs y.disk (BothNamed plan start)).Shares p p' →
        nameOn p.disk plan p.name = nameOn start.disk plan start.name ∧
          nameOn p'.disk plan p'.name = nameOn start.disk plan start.name := by
    intro p p' hshares
    have hsame : NamedAlike plan start.disk p.disk :=
      namedAlike_of_sameText hshares.disk.left.home (hshares.disk.left.sameText hd hclear)
    exact ⟨nameOn_eq_of_named hshares.name.1 hsame,
      nameOn_eq_of_named hshares.name.2 ((h.namedAlike hjob hshares).trans hsame)⟩
  refine Company.undisturbed_projectName _ plan (fun p p' hshares => ?_)
    (fun p p' name hshares hname => ?_)
  · obtain ⟨hp, hp'⟩ := halone p p' hshares
    exact hp'.trans hp.symm
  · rw [(halone p p' hshares).1] at hname
    exact ⟨.inr hname, .inr hname⟩

/-- Together with others, a job takes the step that it takes without them. -/
theorem Together.step (hd : start.disk.Standing) (hmem : job ∈ ours)
    (h : Job.Spares plan start.disk (Job.allPlaces plan theirs) job)
    (h' : ∀ other ∈ theirs, Job.Spares plan start.disk (Job.allPlaces plan ours) other)
    (hs : s.stage.Of plan job) (hxyz : Together plan start ours theirs x y z) :
    (s.step plan job z).1 = (s.step plan job x).1 ∧
      Together plan start ours theirs (s.step plan job x).2 y (s.step plan job z).2 := by
  have hours : job.places plan ⊆ Job.allPlaces plan ours :=
    fun _ hl => List.mem_flatMap.mpr ⟨job, hmem, hl⟩
  by_cases hjob : job.AsksName plan
  · have hasks : ¬ ∀ job ∈ ours, ¬ job.AsksName plan := fun hnone => hnone job hmem hjob
    by_cases htheirs : ∃ other ∈ theirs, other.AsksName plan
    · obtain ⟨hx, hy, hz⟩ : Named start.disk plan start.name x.name ∧
          Named start.disk plan start.name y.name ∧ Named start.disk plan start.name z.name := by
        simpa using hxyz.named ⟨job, hmem, hjob⟩ htheirs
      have hname : (Job.company plan start.disk ours theirs y.disk (BothNamed plan start)).Undisturbed
          (fun _ => True) (Task.projectName plan) := by
        obtain ⟨other, hother, hothers⟩ := htheirs
        exact h.undisturbed_projectName hd hjob (h' other hother) hothers y
      obtain ⟨hsame, hshares⟩ := h.step hours hs (fun _ => hname) ⟨hxyz.disk, hx, hz⟩
      refine ⟨hsame, hshares.disk, fun hnone => ?_, fun hnone => absurd hnone hasks, fun _ _ => ?_⟩
      · obtain ⟨other, hother, hothers⟩ := htheirs
        exact absurd hothers (hnone other hother)
      · simpa using ⟨hshares.name.1, hy, hshares.name.2⟩
    · have hnone : ∀ other ∈ theirs, ¬ other.AsksName plan := fun other hother hothers =>
        htheirs ⟨other, hother, hothers⟩
      have hname := (Job.company plan start.disk ours theirs y.disk
          fun a b => b = a).undisturbed_projectName plan
        (fun p p' hshares => by rw [hshares.name, nameOn_eq (h.namedAlike hjob hshares)])
        (fun _ _ _ _ _ => rfl)
      obtain ⟨hsame, hshares⟩ := h.step hours hs (fun _ => hname) ⟨hxyz.disk, hxyz.left hnone⟩
      exact ⟨hsame, hshares.disk, fun _ => hshares.name, fun hnone => absurd hnone hasks,
        fun _ hsome => absurd hsome htheirs⟩
  · -- the job leaves the name that the others are told
    have hkept : (Job.company plan start.disk ours theirs y.disk
        fun a b => a = x.name ∧ b = z.name).Shares x z := ⟨hxyz.disk, rfl, rfl⟩
    obtain ⟨hsame, hshares⟩ := h.step hours hs (fun hasks => absurd hasks hjob) hkept
    obtain ⟨hx, hz⟩ := hshares.name
    refine ⟨hsame, hshares.disk, fun hnone => ?_, fun hnone => ?_, fun hsome hsome' => ?_⟩
    · rw [hx, hz, hxyz.left hnone]
    · rw [hz, hxyz.right hnone]
    · rw [List.forall_mem_cons, List.forall_mem_cons, List.forall_mem_singleton, hx, hz]
      simpa using hxyz.named hsome hsome'

end Together

/-! ### All jobs of a batch -/

/-- The members are as far as some number of steps takes each of them alone, and the project is what they
make of `start` together. -/
def Made (plan : Plan) (start : Project) : List Member → Project → Prop
  | [], p => start.Agrees p
  | m :: rest, p => ∃ n y, m.progress = (m.job.run plan n start).1 ∧ Made plan start rest y ∧
    Together plan start [m.job] (rest.map Member.job) (m.job.run plan n start).2 y p

section Made

open Job (Independent)

variable {plan : Plan} {start p p' : Project} {m : Member} {ms before after : List Member}

theorem Made.fresh (hd : start.disk.Standing) (h : ∀ m ∈ ms, m.progress = {}) :
    Made plan start ms start := by
  induction ms with
  | nil => exact .refl start
  | cons m rest ih =>
      obtain ⟨hm, hrest⟩ := List.forall_mem_cons.mp h
      exact ⟨0, start, hm, ih hrest, .refl hd plan _ _⟩

theorem Made.told (h : Made plan start ms p) (hp : p.Agrees p') : Made plan start ms p' := by
  cases ms with
  | nil => exact h.trans hp
  | cons m rest =>
      obtain ⟨n, y, hm, hrest, htogether⟩ := h
      exact ⟨n, y, hm, hrest, htogether.told hp⟩

theorem Made.of (h : Made plan start ms p) : ∀ m ∈ ms, m.progress.stage.Of plan m.job := by
  induction ms generalizing p with
  | nil => exact List.forall_mem_nil _
  | cons m rest ih =>
      obtain ⟨n, y, hm, hrest, -⟩ := h
      exact List.forall_mem_cons.mpr ⟨hm ▸ (Job.stage_run plan m.job n start).2, ih hrest⟩

theorem map_job_stepped (plan : Plan) (before after : List Member) (m : Member) (p : Project) :
    (before ++ m.stepped plan p :: after).map Member.job = (before ++ m :: after).map Member.job := by
  simp [Member.stepped]

/-- Whichever of the jobs takes a step, it takes the one that is its next. -/
theorem Made.step (hd : start.disk.Standing)
    (h : ((before ++ m :: after).map Member.job).Pairwise (Independent plan start.disk))
    (hmade : Made plan start (before ++ m :: after) p) :
    Made plan start (before ++ m.stepped plan p :: after) (m.progress.step plan m.job p).2 := by
  -- the member is ahead of the others, or it is one of those that the first is beside
  induction before generalizing p with
  | nil =>
      obtain ⟨hm, -⟩ := List.pairwise_cons.mp h
      obtain ⟨n, y, hprogress, hrest, htogether⟩ := hmade
      obtain ⟨hsame, hnext⟩ := htogether.step hd List.mem_cons_self
        (.all fun other hother => (hm other hother).spared)
        (fun other hother => .one (hm other hother).spares)
        (Job.stage_run plan m.job n start).2
      rw [← Job.run_succ] at hsame hnext
      rw [hprogress]
      exact ⟨n + 1, y, (by rw [Member.stepped, hprogress, hsame]), hrest, hnext⟩
  | cons first before ih =>
      obtain ⟨hfirst, hothers⟩ := List.pairwise_cons.mp h
      obtain ⟨n, y, hprogress, hrest, htogether⟩ := hmade
      have hmem : m ∈ before ++ m :: after := List.mem_append_right _ List.mem_cons_self
      have hjob : m.job ∈ (before ++ m :: after).map Member.job := List.mem_map_of_mem hmem
      -- the others take the step that they take without the first, which the induction is about
      obtain ⟨hsame, hnext⟩ := htogether.symm.step hd hjob
        (.one (hfirst m.job hjob).spares)
        (List.forall_mem_singleton.mpr (.all fun job hjob => (hfirst job hjob).spared))
        (hrest.of m hmem)
      have hstepped : m.stepped plan p = m.stepped plan y := by
        rw [Member.stepped, Member.stepped, hsame]
      rw [hstepped]
      refine ⟨n, _, hprogress, ih hothers hrest, ?_⟩
      rw [← map_job_stepped plan before after m y] at hnext
      exact hnext.symm

/-- Jobs that are not in each other's way persist in what they make alone. -/
theorem persistent_made (hd : start.disk.Standing) :
    Persistent plan fun ms p =>
      (ms.map Member.job).Pairwise (Independent plan start.disk) ∧ Made plan start ms p where
  step {before m after p} h := ⟨map_job_stepped plan before after m p ▸ h.1, h.2.step hd h.1⟩
  told hp h := ⟨h.1, h.2.told hp⟩
  of h := h.2.of

/-- A member that is done gave what its job gives alone. -/
theorem Made.outcome (h : Made plan start ms p)
    (hfinished : ∀ m ∈ ms, m.progress.stage.finished = true) :
    ∀ m ∈ ms, m.progress.outcome = (m.job.generate plan start).1 := by
  induction ms generalizing p with
  | nil => exact List.forall_mem_nil _
  | cons m rest ih =>
      obtain ⟨hm, hms⟩ := List.forall_mem_cons.mp hfinished
      obtain ⟨n, y, hprogress, hrest, -⟩ := h
      rw [hprogress] at hm
      refine List.forall_mem_cons.mpr ⟨?_, ih hrest hms⟩
      rw [hprogress, Job.generate_of_run hm]

/-- There is one way for all of the jobs to have ended. -/
theorem Made.sameContent {ms' : List Member} (h : Made plan start ms p) (h' : Made plan start ms' p')
    (hjobs : ms'.map Member.job = ms.map Member.job)
    (hfinished : ∀ m ∈ ms, m.progress.stage.finished = true)
    (hfinished' : ∀ m ∈ ms', m.progress.stage.finished = true) : SameContent p.disk p'.disk := by
  induction ms generalizing ms' p p' with
  | nil =>
      obtain rfl : ms' = [] := List.map_eq_nil_iff.mp hjobs
      rw [h.disk, h'.disk]
      exact .refl start.disk
  | cons m rest ih =>
      cases ms' with
      | nil => exact nomatch hjobs
      | cons m' rest' =>
          obtain ⟨hjob, hjobs⟩ := List.cons.inj hjobs
          obtain ⟨hm, hms⟩ := List.forall_mem_cons.mp hfinished
          obtain ⟨hm', hms'⟩ := List.forall_mem_cons.mp hfinished'
          obtain ⟨n, y, hprogress, hrest, htogether⟩ := h
          obtain ⟨n', y', hprogress', hrest', htogether'⟩ := h'
          rw [hprogress] at hm
          rw [hprogress', hjob] at hm'
          have hends : (m.job.run plan n start).2 = (m.job.run plan n' start).2 := by
            have hend := (Job.generate_of_run hm).symm.trans (Job.generate_of_run hm')
            exact (Prod.mk.inj hend).2
          rw [hjob, hjobs, ← hends] at htogether'
          exact htogether.disk.sameContent htogether'.disk (.refl _)
            (ih hrest hrest' hjobs hms hms')

end Made

/-! ### Two jobs -/

section Pair

open Job (Independent)

variable {plan : Plan} {start y z : Project} {job other : Job}

/-- Beside another, a job ends as it does alone. -/
theorem Together.generate (hd : start.disk.Standing) (h : Independent plan start.disk job other)
    (hyz : Together plan start [job] [other] start y z) :
    (job.generate plan z).1 = (job.generate plan start).1 ∧
      Together plan start [job] [other] (job.generate plan start).2 y (job.generate plan z).2 := by
  have hrun : ∀ n, (job.run plan n z).1 = (job.run plan n start).1 ∧
      Together plan start [job] [other] (job.run plan n start).2 y (job.run plan n z).2 := by
    intro n
    induction n with
    | zero => exact ⟨rfl, hyz⟩
    | succ n ih =>
        obtain ⟨hsame, htogether⟩ := ih
        rw [Job.run_succ, Job.run_succ, hsame]
        exact htogether.step hd List.mem_cons_self (.one h.spared)
          (List.forall_mem_singleton.mpr (.one h.spares)) (Job.stage_run plan job n start).2
  obtain ⟨hsame, htogether⟩ := hrun (job.length plan)
  rw [Job.generate_of_run (Job.finished_run (Nat.le_refl _)),
    Job.generate_of_run (Job.finished_run (Nat.le_refl _))]
  exact ⟨congrArg Progress.outcome hsame, htogether⟩

/-- One job after the other. -/
theorem Job.Independent.generate_generate (hd : start.disk.Standing)
    (h : Independent plan start.disk job other) :
    (other.generate plan (job.generate plan start).2).1 = (other.generate plan start).1 ∧
      Together plan start [job] [other] (job.generate plan start).2 (other.generate plan start).2
        (other.generate plan (job.generate plan start).2).2 := by
  have hfirst := ((Together.refl hd plan [job] [other]).generate hd h).2
  obtain ⟨hsame, hboth⟩ := hfirst.symm.generate hd h.symm
  exact ⟨hsame, hboth.symm⟩

/-- What a batch of two jobs gives, in any order of their steps. -/
theorem Job.Independent.generateBatch (hd : start.disk.Standing)
    (h : Independent plan start.disk job other) (schedule : Schedule) :
    (Run.generateBatch schedule plan (members [job, other]) start).1 =
        job.unitsOf (job.generate plan start).1 ++ other.unitsOf (other.generate plan start).1 ∧
      ∃ y : Project, SameContent (other.generate plan start).2.disk y.disk ∧
        Beside start.disk (allPlaces plan [job]) (allPlaces plan [other])
          (job.generate plan start).2.disk y.disk
          (Run.generateBatch schedule plan (members [job, other]) start).2.disk := by
  have hnew : ∀ m ∈ members [job, other], m.progress = {} := forall_mem_members fun _ _ _ => rfl
  have hfresh : Made plan start ([] ++ members [job, other] ++ []) start := .fresh hd hnew
  have hpair : (([] ++ members [job, other] ++ []).map Member.job).Pairwise
      (Independent plan start.disk) :=
    List.pairwise_pair.mpr h
  obtain ⟨done, hdone, ⟨-, hmade⟩, hunits⟩ :=
    (persistent_made hd).generateBatch schedule ⟨hpair, hfresh⟩
  obtain ⟨m, rest, rfl, rfl, hrest⟩ :=
    List.map_eq_cons_iff.mp (hdone.jobs.trans (map_job_members [job, other]))
  obtain ⟨m', rest', rfl, rfl, hnil⟩ := List.map_eq_cons_iff.mp hrest
  obtain rfl := List.map_eq_nil_iff.mp hnil
  have hgiven := hmade.outcome hdone.finished
  have houtcome := hgiven m List.mem_cons_self
  have houtcome' := hgiven m' (List.mem_cons_of_mem _ List.mem_cons_self)
  have hm := hdone.finished m List.mem_cons_self
  have hm' := hdone.finished m' (List.mem_cons_of_mem _ List.mem_cons_self)
  obtain ⟨n, y, hprogress, ⟨n', start', hprogress', hstart, halone⟩, htogether⟩ := hmade
  rw [hprogress] at hm
  rw [hprogress'] at hm'
  refine ⟨?_, y, ?_, ?_⟩
  · rw [hunits, ← houtcome, ← houtcome']
    simp [Member.units]
  · have hleft : Beside start.disk (allPlaces plan [m'.job]) [] (m'.job.run plan n' start).2.disk
        start.disk y.disk := hstart.disk ▸ halone.disk
    rw [Job.generate_of_run hm']
    exact hleft.alone
  · rw [Job.generate_of_run hm]
    exact htogether.disk

/-- Jobs that are not in each other's way can take their steps in any order. With turns enough all steps
are taken in that order, and whatever the order, the units and the disk are those of one job after the
other, whichever of them is first. -/
theorem generateBatch_of_independent (plan : Plan) (start : Project) (job other : Job)
    (schedule : Schedule) (hd : start.disk.Standing) (h : Independent plan start.disk job other) :
    let both := generateBatch schedule plan (members [job, other]) start
    let first := job.generate plan start
    let second := other.generate plan first.2
    let first' := other.generate plan start
    let second' := job.generate plan first'.2
    (job.length plan ≤ schedule.turns.count 0 → other.length plan ≤ schedule.turns.count 1 →
      ∀ m ∈ (takeTurns plan schedule.turns (members [job, other]) start).1,
        m.progress.stage.finished = true) ∧
    (both.1 = job.unitsOf first.1 ++ other.unitsOf second.1 ∧
      SameContent second.2.disk both.2.disk) ∧
    (both.1 = job.unitsOf second'.1 ++ other.unitsOf first'.1 ∧
      SameContent second'.2.disk both.2.disk) := by
  obtain ⟨hunits, y, hsame, hbeside⟩ := h.generateBatch hd schedule
  obtain ⟨hsecond, hseq⟩ := h.generate_generate hd
  obtain ⟨hsecond', hseq'⟩ := h.symm.generate_generate hd
  refine ⟨fun hjob hother => ?_, ⟨?_, ?_⟩, ⟨?_, ?_⟩⟩
  · refine finished_takeTurns (nodup_number_members _) (forall_mem_members fun _ _ _ => trivial) ?_
    exact List.forall_mem_cons.mpr ⟨hjob, List.forall_mem_singleton.mpr hother⟩
  · rw [hunits, hsecond]
  · exact hseq.disk.sameContent hbeside (.refl _) hsame
  · rw [hunits, hsecond']
  · exact hseq'.disk.symm.sameContent hbeside (.refl _) hsame

/-- A feature with one page. Its sample is in the root, and its extra models are in a directory that is
made on the way. -/
def neighbour (name : String) : Job :=
  { feature := { name, directory := "/work/" ++ name
                 pages := [{ name := "home", apis := [("getUser", entry)] }] }
    settings := {} }
where
  entry : Json :=
    .obj [("method", .str "get"), ("path", .str "/user"), ("response", .str "user.json"),
      ("dir_extra", .str ("gen/" ++ name))]
  files : List Location :=
    ([["data", "datasources", "home_remote_data_source.dart"],
      ["data", "repositories", "home_repository_impl.dart"],
      ["domain", "repositories", "home_repository.dart"],
      ["mapper.dart"],
      ["data", "models", "body", "get_user_body.dart"],
      ["data", "models", "response", "get_user_response.dart"],
      ["domain", "entities", "get_user_entity.dart"]].map inPage) ++
      [{ parts := ["gen", name, "get_user_extra.dart"] },
        inPage ["domain", "usecases", "get_user_use_case.dart"]]
  lookups : List Location :=
    [{ parts := ["user.json"] }, { parts := ["morpheme.yaml"] }]
  inPage (parts : List String) : Location :=
    { root := "/", parts := ["work", name, "lib", "home"] ++ parts }

/-- The features are called `a` and `b`, and how the project is called is not known yet. -/
def neighbourhood : Project :=
  { disk := { home := ["work"]
              entries := [(["work"], .directory), (["work", "user.json"], .file "\x7b\x7d".toUTF8)] ++
                (["a", "b"].flatMap fun name => [(["work", name], .directory),
                  (["work", name, "lib"], .directory), (["work", name, "lib", "home"], .directory)]) } }

theorem spares_neighbour : ∀ names ∈ [("a", "b"), ("b", "a")],
    Job.Spares {} neighbourhood.disk ((neighbour names.1).places {}) (neighbour names.2) := by
  have hplaces : ∀ name ∈ ["a", "b"], (neighbour name).places {} = neighbour.files name := by
    decide +kernel
  have hreadings : ∀ name ∈ ["a", "b"], (neighbour name).readings {} = neighbour.lookups := by
    decide +kernel
  have hsites : ∀ name ∈ ["a", "b"],
      ((neighbour name).sites {}).map Site.directory = [neighbour.inPage name []] := by
    decide +kernel
  have happart : ∀ names ∈ [("a", "b"), ("b", "a")], ∀ l ∈ neighbour.files names.2,
      ∀ key ∈ neighbourhood.disk.landings l,
        key ∉ neighbourhood.disk.landingsOf (neighbour.files names.1) := by
    decide +kernel
  have hclear : ∀ names ∈ [("a", "b"), ("b", "a")],
      ∀ l ∈ neighbour.files names.2 ++ neighbour.lookups,
        neighbourhood.disk.Clear (neighbour.files names.1) l := by
    decide +kernel
  have hpages : ∀ names ∈ [("a", "b"), ("b", "a")], ∀ l ∈ [neighbour.inPage names.2 []],
      neighbourhood.disk.Untouched (neighbour.files names.1) l := by
    decide +kernel
  intro names hnames
  obtain ⟨hleft, hright⟩ : names.1 ∈ ["a", "b"] ∧ names.2 ∈ ["a", "b"] := by
    revert names
    decide
  refine ⟨?_, ?_, fun site hsite => ?_⟩
  · rw [hplaces _ hleft, hplaces _ hright]
    exact happart names hnames
  · rw [hplaces _ hleft, hplaces _ hright, hreadings _ hright]
    exact hclear names hnames
  · rw [hplaces _ hleft]
    exact hpages names hnames _ (hsites _ hright ▸ List.mem_map_of_mem hsite)

theorem generateBatch_of_independent_neighbours :
    neighbourhood.disk.Standing ∧
      Independent {} neighbourhood.disk (neighbour "a") (neighbour "b") ∧
      (∀ m ∈ (takeTurns {} [0, 1, 1, 0, 0, 1, 0, 1] (members [neighbour "a", neighbour "b"])
        neighbourhood).1, m.progress.stage.finished = true) ∧
      SameContent
        ((neighbour "b").generate {} ((neighbour "a").generate {} neighbourhood).2).2.disk
        (generateBatch { turns := [0, 1, 1, 0, 0, 1, 0, 1] } {}
          (members [neighbour "a", neighbour "b"]) neighbourhood).2.disk := by
  have hstanding : neighbourhood.disk.Standing :=
    Disk.standing_of_entries (by decide) (by decide)
  have hindependent : Independent {} neighbourhood.disk (neighbour "a") (neighbour "b") :=
    ⟨spares_neighbour ("b", "a") (by decide), spares_neighbour ("a", "b") (by decide)⟩
  obtain ⟨hfinished, ⟨-, hsame⟩, -⟩ := generateBatch_of_independent {} neighbourhood (neighbour "a")
    (neighbour "b") { turns := [0, 1, 1, 0, 0, 1, 0, 1] } hstanding hindependent
  exact ⟨hstanding, hindependent, hfinished (by decide) (by decide), hsame⟩

end Pair

end DartScaffold.Run
