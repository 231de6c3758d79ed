import DartScaffold.Proofs.Disk.Saving
import DartScaffold.Run.Task

/-!
Tasks as lists of actions. Once its samples are read, a unit does nothing but write files, merge
fragments, claim mapper names and learn what the project is called, one after the other until one of
these fails. `Performs` says which list a task works off; what holds of a unit is then shown of the
list, action by action.
-/

namespace DartScaffold.Run

open Disk (Location WriteMode)

/-- What the actions of a unit work on. -/
structure Bench where
  disk : Disk
  name : String
  scope : ClassName.Scope
  /-- What was written so far. -/
  files : List Saved

def Workspace.bench (w : Workspace) : Bench :=
  ⟨w.project.disk, w.project.name, w.memory.scope, w.trail.files⟩

inductive Action where
  | save (place : Location) (content : Twin String)
  | patch (place : Location) (fragment : Twin Aggregate.Fragment)
  | claim (scope : ClassName.Scope)
  | call (name : String)
  | fail (failure : Failure)

namespace Action

/-- What became of a file. -/
def ended (b : Bench) (saved : Except Failure Saved × Disk) : Except Failure Unit × Bench :=
  (saved.1.map fun _ => (),
    { b with disk := saved.2, files := b.files ++ saved.1.toOption.toList })

def perform (mode : WriteMode) (b : Bench) : Action → Except Failure Unit × Bench
  | save place content => ended b (b.disk.saveTwin mode place content)
  | patch place fragment => ended b (Aggregate.patch b.disk mode place fragment).2
  | claim scope => (.ok (), { b with scope })
  | call name => (.ok (), { b with name })
  | fail failure => (.error failure, b)

/-- The actions in order, up to the first that fails. -/
def performAll (mode : WriteMode) : Bench → List Action → Except Failure Unit × Bench
  | b, [] => (.ok (), b)
  | b, action :: rest =>
    match action.perform mode b with
    | (.ok (), b) => performAll mode b rest
    | (.error failure, b) => (.error failure, b)

/-- Nothing to do, unless something failed. -/
def check {α : Type} : Except Failure α → List Action
  | .ok _ => []
  | .error failure => [.fail failure]

theorem forall_mem_check {α : Type} {P : Action → Prop} {result : Except Failure α}
    (h : ∀ failure, result = .error failure → P (.fail failure)) : ∀ a ∈ check result, P a := by
  cases result with
  | ok a => exact List.forall_mem_nil _
  | error failure => exact List.forall_mem_singleton.mpr (h failure rfl)

variable {mode : WriteMode} {b b' : Bench} {as bs : List Action} {failure : Failure}

theorem performAll_append_ok (h : performAll mode b as = (.ok (), b')) :
    performAll mode b (as ++ bs) = performAll mode b' bs := by
  induction as generalizing b with
  | nil =>
      obtain rfl : b = b' := congrArg Prod.snd h
      rfl
  | cons a as ih =>
      rw [performAll] at h
      rw [List.cons_append, performAll]
      split at h
      · exact ih h
      · exact absurd (congrArg Prod.fst h) (by simp)

theorem performAll_append_error (h : performAll mode b as = (.error failure, b')) :
    performAll mode b (as ++ bs) = (.error failure, b') := by
  induction as generalizing b with
  | nil => exact absurd (congrArg Prod.fst h) (by simp [performAll])
  | cons a as ih =>
      rw [performAll] at h
      rw [List.cons_append, performAll]
      split at h
      · exact ih h
      · exact h

/-- What every action keeps is kept by all of them, whether or not one fails. -/
theorem performAll_keeps {P : Bench → Prop} (hkeeps : ∀ a ∈ as, ∀ b, P b → P (a.perform mode b).2)
    (hb : P b) : P (performAll mode b as).2 := by
  induction as generalizing b with
  | nil => exact hb
  | cons a as ih =>
      obtain ⟨hfirst, hrest⟩ := List.forall_mem_cons.mp hkeeps
      have hnext := hfirst b hb
      rw [performAll]
      split
      · rename_i b₁ hstep
        rw [hstep] at hnext
        exact ih hrest hnext
      · rename_i failure b₁ hstep
        rw [hstep] at hnext
        exact hnext

/-- Only a call says what the project is called. -/
theorem name_performAll {result : Except Failure Unit} (h : performAll mode b as = (result, b'))
    (has : ∀ a ∈ as, ∀ name, a ≠ .call name) : b'.name = b.name := by
  have hkeeps : ∀ a ∈ as, ∀ b₁ : Bench, b₁.name = b.name → (a.perform mode b₁).2.name = b.name := by
    intro a ha b₁ hb₁
    cases a with
    | call name => exact absurd rfl (has _ ha name)
    | _ => exact hb₁
  have hall := performAll_keeps hkeeps rfl
  rwa [h] at hall

/-- Only a claim changes which mapper names are taken. -/
theorem scope_performAll {result : Except Failure Unit} (h : performAll mode b as = (result, b'))
    (has : ∀ a ∈ as, ∀ scope, a ≠ .claim scope) : b'.scope = b.scope := by
  have hkeeps : ∀ a ∈ as, ∀ b₁ : Bench, b₁.scope = b.scope →
      (a.perform mode b₁).2.scope = b.scope := by
    intro a ha b₁ hb₁
    cases a with
    | claim scope => exact absurd rfl (has _ ha scope)
    | _ => exact hb₁
  have hall := performAll_keeps hkeeps rfl
  rwa [h] at hall

end Action

namespace Task

open Run.Action

variable {α β : Type}

/-- The task's result and what it leaves. -/
def exec (t : Task α) (w : Workspace) : Except Failure α × Workspace :=
  t.run.run w

/-! ### Running a task -/

@[simp] theorem exec_pure (a : α) (w : Workspace) : exec (pure a) w = (.ok a, w) := rfl

theorem exec_bind (t : Task α) (f : α → Task β) (w : Workspace) :
    exec (t >>= f) w = match exec t w with
      | (.ok a, w) => exec (f a) w
      | (.error failure, w) => (.error failure, w) := by
  simp only [exec, ExceptT.run, StateT.run, bind, ExceptT.bind, ExceptT.mk, StateT.bind]
  generalize t w = outcome
  obtain ⟨result, w⟩ := outcome
  cases result <;> rfl

theorem exec_bind_ok {t : Task α} {w w' : Workspace} {a : α} (h : exec t w = (.ok a, w'))
    (f : α → Task β) : exec (t >>= f) w = exec (f a) w' := by
  rw [exec_bind, h]

theorem exec_bind_error {t : Task α} {w w' : Workspace} {failure : Failure}
    (h : exec t w = (.error failure, w')) (f : α → Task β) :
    exec (t >>= f) w = (.error failure, w') := by
  rw [exec_bind, h]

@[simp] theorem exec_ofExcept (result : Except Failure α) (w : Workspace) :
    exec (ofExcept result) w = (result, w) := by
  cases result <;> rfl

theorem exec_get_bind (f : Workspace → Task β) (w : Workspace) :
    exec (get >>= f) w = exec (f w) w := rfl

/-- The two workspaces differ in what is told and noted only. -/
structure Quiet (w w' : Workspace) : Prop where
  bench : w'.bench = w.bench
  samples : w'.memory.samples = w.memory.samples

theorem Quiet.refl (w : Workspace) : Quiet w w := ⟨rfl, rfl⟩

theorem Quiet.trans {w w' w'' : Workspace} (h : Quiet w w') (h' : Quiet w' w'') : Quiet w w'' :=
  ⟨h'.bench.trans h.bench, h'.samples.trans h.samples⟩

theorem exec_tellWarnings (source : Log.Source) (texts : List String) (w : Workspace) :
    exec (tellWarnings source texts) w = (.ok (), { w with
      project := { w.project with log := w.project.log ++ texts.map (Log.warning source) } }) := by
  induction texts generalizing w with
  | nil =>
      rw [List.map_nil, List.append_nil]
      rfl
  | cons text texts ih =>
      let told : Workspace := { w with project := w.project.tell (Log.warning source text) }
      have htell : exec (tell (Log.warning source text)) w = (.ok (), told) := rfl
      change exec (tell (Log.warning source text) >>= fun _ => tellWarnings source texts) w = _
      rw [exec_bind_ok htell, ih told, List.map_cons, List.append_cons]
      rfl

theorem quiet_tellWarnings (source : Log.Source) (texts : List String) (w : Workspace) :
    ∃ w', exec (tellWarnings source texts) w = (.ok (), w') ∧ Quiet w w' :=
  ⟨_, exec_tellWarnings source texts w, rfl, rfl⟩

theorem quiet_addWarnings (texts : List String) (w : Workspace) :
    ∃ w', exec (addWarnings texts) w = (.ok (), w') ∧ Quiet w w' :=
  ⟨_, rfl, rfl, rfl⟩

/-! ### What a task performs -/

/-- From `w` on the task works the actions off, and gives `a` if none fails. -/
structure Performs (mode : WriteMode) (t : Task α) (w : Workspace) (actions : List Action) (a : α) :
    Prop where
  outcome : (exec t w).1 = (performAll mode w.bench actions).1.map fun _ => a
  bench : (exec t w).2.bench = (performAll mode w.bench actions).2
  samples : (exec t w).2.memory.samples = w.memory.samples

section Performs

variable {mode : WriteMode} {w : Workspace} {as bs : List Action} {a : α} {b : β}

theorem performs_pure (mode : WriteMode) (w : Workspace) (a : α) :
    Performs mode (pure a) w [] a :=
  ⟨rfl, rfl, rfl⟩

theorem performs_get {f : Workspace → Task β} (h : Performs mode (f w) w as b) :
    Performs mode (get >>= f) w as b :=
  ⟨h.outcome, h.bench, h.samples⟩

/-- Nothing is done after the first failure. -/
theorem Performs.bind {t : Task α} {f : α → Task β} (h : Performs mode t w as a)
    (hnext : ∀ w', exec t w = (.ok a, w') → performAll mode w.bench as = (.ok (), w'.bench) →
      w'.memory.samples = w.memory.samples → Performs mode (f a) w' bs b) :
    Performs mode (t >>= f) w (as ++ bs) b := by
  obtain ⟨houtcome, hbench, hsamples⟩ := h
  cases hrun : performAll mode w.bench as with
  | mk result bench =>
      cases hexec : exec t w with
      | mk result' w' =>
          rw [hexec, hrun] at houtcome hbench
          rw [hexec] at hsamples
          dsimp only at houtcome hbench hsamples
          cases result with
          | error failure =>
              obtain rfl : result' = .error failure := houtcome
              have hall : performAll mode w.bench (as ++ bs) = _ := performAll_append_error hrun
              have hbind := exec_bind_error hexec f
              refine ⟨?_, ?_, ?_⟩
              · rw [hall, hbind]
                rfl
              · rw [hall, hbind]
                exact hbench
              · rw [hbind]
                exact hsamples
          | ok _ =>
              obtain rfl : result' = .ok a := houtcome
              rw [← hbench] at hrun
              obtain ⟨houtcome', hbench', hsamples'⟩ := hnext w' hexec hrun hsamples
              have hbind := exec_bind_ok hexec f
              have hall : performAll mode w.bench (as ++ bs) = _ := performAll_append_ok hrun
              refine ⟨?_, ?_, ?_⟩
              · rw [hbind, hall, houtcome']
              · rw [hbind, hall, hbench']
              · rw [hbind, hsamples', hsamples]

theorem Performs.andThen {t : Task Unit} {t' : Task β} (h : Performs mode t w as ())
    (hnext : ∀ w', performAll mode w.bench as = (.ok (), w'.bench) →
      w'.memory.samples = w.memory.samples → Performs mode t' w' bs b) :
    Performs mode (t >>= fun _ => t') w (as ++ bs) b :=
  h.bind fun w' _ => hnext w'

theorem Performs.map {t : Task α} (h : Performs mode t w as a) (f : α → β) :
    Performs mode (f <$> t) w as (f a) := by
  have hmap : Performs mode (t >>= fun a => pure (f a)) w (as ++ []) (f a) :=
    h.bind fun w' _ _ _ => performs_pure mode w' (f a)
  rwa [List.append_nil, bind_pure_comp] at hmap

/-- A value that is known beforehand. -/
theorem performs_known {result : Except Failure α} (hresult : result = .ok a) {f : α → Task β}
    (h : Performs mode (f a) w bs b) : Performs mode (ofExcept result >>= f) w bs b := by
  subst hresult
  exact ⟨h.outcome, h.bench, h.samples⟩

/-- A failure that leaves everything as it was. -/
theorem performs_error {t : Task α} {w' : Workspace} {failure : Failure}
    (h : exec t w = (.error failure, w')) (hquiet : Quiet w w') (mode : WriteMode)
    (f : α → Task β) (as : List Action) (b : β) :
    Performs mode (t >>= f) w (.fail failure :: as) b := by
  have hexec := exec_bind_error h f
  refine ⟨?_, ?_, ?_⟩ <;> rw [hexec]
  · rfl
  · exact hquiet.bench
  · exact hquiet.samples

/-- A result that is there, or else a failure. -/
theorem performs_check {result : Except Failure α} {f : α → Task β}
    (h : ∀ a, result = .ok a → Performs mode (f a) w bs b) :
    Performs mode (ofExcept result >>= f) w (check result ++ bs) b := by
  cases result with
  | ok a => exact performs_known rfl (h a rfl)
  | error failure => exact performs_error (exec_ofExcept _ w) (.refl w) mode f bs b

theorem performs_useScope (mode : WriteMode) (w : Workspace) (scope : ClassName.Scope) :
    Performs mode (useScope scope) w [.claim scope] () :=
  ⟨rfl, rfl, rfl⟩

/-- The file is added to the trail, and otherwise nothing is changed but what is told. -/
structure Notes (saved : Saved) (w w' : Workspace) : Prop where
  bench : w'.bench = { w.bench with files := w.bench.files ++ [saved] }
  samples : w'.memory.samples = w.memory.samples

/-- A file is written, and then something is told before the outcome is known. -/
theorem performs_ended (action : Action) (result : Except Failure Saved × Disk)
    (h : action.perform mode w.bench = ended w.bench result) (before : Task Unit)
    (after : Saved → Task Unit)
    (hbefore : ∀ w, ∃ w', exec before w = (.ok (), w') ∧ Quiet w w')
    (hafter : ∀ saved w, ∃ w', exec (after saved) w = (.ok (), w') ∧ Notes saved w w') :
    Performs mode (do useDisk result.2; before; let saved ← ofExcept result.1; after saved) w
      [action] () := by
  obtain ⟨result, disk⟩ := result
  let changed : Workspace := { w with project := { w.project with disk } }
  have hdisk : exec (useDisk disk) w = (.ok (), changed) := rfl
  obtain ⟨told, hbefore, hquiet⟩ := hbefore changed
  have hbench : told.bench = { w.bench with disk } := hquiet.bench
  have hsamples : told.memory.samples = w.memory.samples := hquiet.samples
  cases result with
  | error failure =>
      have hall : performAll mode w.bench [action] = (.error failure, { w.bench with disk }) := by
        rw [performAll, h]
        simp [ended, Except.map, Except.toOption]
      have hexec : exec (do useDisk disk; before; let saved ← ofExcept (.error failure); after saved)
          w = (.error failure, told) := by
        rw [exec_bind_ok hdisk, exec_bind_ok hbefore, exec_bind, exec_ofExcept]
      refine ⟨?_, ?_, ?_⟩ <;> rw [hexec]
      · rw [hall]
        rfl
      · rw [hall, hbench]
      · exact hsamples
  | ok saved =>
      have hall : performAll mode w.bench [action] =
          (.ok (), { w.bench with disk, files := w.bench.files ++ [saved] }) := by
        rw [performAll, h]
        rfl
      obtain ⟨w', hafter, hnotes⟩ := hafter saved told
      have hexec : exec (do useDisk disk; before; let saved ← ofExcept (.ok saved); after saved) w =
          (.ok (), w') := by
        rw [exec_bind_ok hdisk, exec_bind_ok hbefore, exec_bind, exec_ofExcept]
        exact hafter
      refine ⟨?_, ?_, ?_⟩ <;> rw [hexec]
      · rw [hall]
        rfl
      · rw [hall, hnotes.bench, hbench]
      · rw [hnotes.samples, hsamples]

theorem performs_save (plan : Plan) (w : Workspace) (place : Location) (content : Twin String) :
    Performs plan.mode (save plan place content) w [.save place content] () := by
  have hended := performs_ended (.save place content)
    (w.project.disk.saveTwin plan.mode place content) rfl (pure ()) note
    (fun w => ⟨w, rfl, .refl w⟩) (fun _ _ => ⟨_, rfl, rfl, rfl⟩)
  rw [pure_bind] at hended
  exact performs_get hended

theorem performs_patch (plan : Plan) (w : Workspace) (directory : Location)
    (fragment : Twin Aggregate.Fragment) :
    Performs plan.mode (patch plan directory fragment) w
      [.patch (directory.child fragment.first.relativePath) fragment] () := by
  refine performs_get ?_
  have hperform : (Action.patch (directory.child fragment.first.relativePath) fragment).perform
      plan.mode w.bench = ended w.bench (Aggregate.patch w.project.disk plan.mode
        (directory.child fragment.first.relativePath) fragment).2 := rfl
  dsimp only
  generalize Aggregate.patch w.project.disk plan.mode
    (directory.child fragment.first.relativePath) fragment = outcome at hperform ⊢
  obtain ⟨warnings, saved⟩ := outcome
  exact performs_ended _ saved hperform (tellWarnings .merging warnings)
    (fun saved => do note saved; addWarnings warnings) (quiet_tellWarnings .merging warnings)
    (fun _ _ => ⟨_, rfl, rfl, rfl⟩)

end Performs

end Task

end DartScaffold.Run
