import DartScaffold.Proofs.Run.Reading
import DartScaffold.Proofs.Validation.Name

/-!
The script of a unit: the actions that it works off, as a function of the entry of its API, of what the
API's samples show on their own, of the mapper names that are claimed before it, and of the name of the
project. The other APIs of the page have no part in it but through these names.
-/

namespace DartScaffold

open ClassName (Registry Scope)

theorem Twin.eq_map_of_traverse {α β ε : Type} {f : α → Except ε β} {g : α → β}
    (h : ∀ a b, f a = .ok b → b = g a) {t : Twin α} {result : Twin β}
    (hresult : t.traverse f = .ok result) : result = t.map g := by
  cases t with
  | same a =>
      rw [traverse] at hresult
      cases ha : f a with
      | error e =>
          rw [ha] at hresult
          contradiction
      | ok found =>
          rw [ha] at hresult
          obtain rfl := Except.ok.inj hresult
          exact congrArg Twin.same (h a found ha)
  | apart a b =>
      rw [traverse] at hresult
      cases ha : f a with
      | error e =>
          rw [ha] at hresult
          contradiction
      | ok first =>
          cases hb : f b with
          | error e =>
              rw [ha, hb] at hresult
              contradiction
          | ok second =>
              rw [ha, hb] at hresult
              obtain rfl := Except.ok.inj hresult
              rw [h a first ha, h b second hb]
              rfl

theorem Sample.eq_of_fieldsOf_obj {entries : Entries} {source : Option String} {fields : Fields}
    (h : fieldsOf (.obj entries) source = .ok fields) : fields = Shape.inferFields entries := by
  rw [fieldsOf_obj] at h
  split at h
  · contradiction
  · exact (Except.ok.inj h).symm

namespace Run

open Run.Task

/-- An API whose entry is accepted and whose samples are read. -/
structure Draft where
  plan : Plan
  site : Site
  api : Api
  samples : Twin Samples

namespace Draft

variable (u : Draft)

/-! ### The texts -/

/-- The fields of the body, unless it is nested too deeply. -/
def bodyFound : Except Failure (Twin Fields) :=
  u.samples.traverse fun s => Sample.fieldsOf (.obj s.body) u.api.body

def bodyFields : Twin Fields :=
  u.samples.map fun s => Shape.inferFields s.body

def bodyPolicy : Model.Policy :=
  { kind := .body, dateCall := u.site.settings.bodyDateCall }

def bodyModel : Twin (Model.File × Registry) :=
  u.bodyFields.map fun fields =>
    Model.emit u.bodyPolicy { api := u.api.name } (ApiUnit.bodyOptions u.api)
      (ApiUnit.bodyPath u.api) (.object fields)

def bodyTest : Twin String := do
  let s ← u.samples
  let (_, registry) ← u.bodyModel
  return ModelTest.bodyTest (u.site.testSubject u.api) u.bodyPolicy (registry.className .body)
    (← u.bodyFields) (.obj s.body) s.bodyList (ApiUnit.bodyOptions u.api)

/-- The fields of the response, unless it is nested too deeply. -/
def responseFound : Except Failure (Twin Fields) :=
  u.samples.traverse fun s => Sample.fieldsOf (.obj s.response) u.api.response

def responseFields : Twin Fields :=
  u.samples.map fun s => Shape.inferFields s.response

def shape : Twin Shape :=
  Shape.object <$> u.responseFields

def responsePolicy : Model.Policy :=
  { kind := .response, dateCall := u.site.settings.responseDateCall }

def responseModel : Twin (Model.File × Registry) :=
  Model.emit u.responsePolicy { api := u.api.name } {} (ApiUnit.responsePath u.api) <$> u.shape

def entityModel : Twin (Model.File × Registry) := do
  let (_, registry) ← u.responseModel
  return Model.emit { kind := .entity } registry {} (ApiUnit.entityPath u.api) (← u.shape)

def mapper (scope : Scope) : Twin (Aggregate.Fragment × Registry × Scope) := do
  let (_, registry) ← u.entityModel
  return Mapper.emit registry scope (← u.shape)

def registry (scope : Scope) : Twin Registry :=
  (fun (_, registry, _) => registry) <$> u.mapper scope

def responseTest (scope : Scope) : Twin String := do
  let s ← u.samples
  return ModelTest.responseTest (u.site.testSubject u.api) u.responsePolicy
    ((← u.registry scope).className .response) (← u.responseFields) (.obj s.response) s.responseList

def extraModel (scope : Scope) : Twin Model.File := do
  return (Model.emit { kind := .extra, dateCall := u.site.settings.responseDateCall }
    (← u.registry scope) {} (ApiUnit.extraPath u.api) (← u.shape)).1

def context (project : String) : Twin Layer.Context :=
  u.samples.map fun s =>
    { api := u.api, project
      page := u.site.page.name
      apps := u.site.feature.apps
      bodyList := s.bodyList
      responseList := s.responseList
      headers := s.headers }

/-! ### The actions -/

def saveModel (directory : Disk.Location) (file : Twin Model.File) : Action :=
  .save (directory.child file.first.relativePath) (Model.File.content <$> file)

def bodyActions : List Action :=
  Action.check u.bodyFound ++
  saveModel u.site.directory (Prod.fst <$> u.bodyModel) ::
    if u.site.wantsTests u.plan then
      [.save (u.site.testDirectory.child (u.site.testSubject u.api).bodyPath) u.bodyTest]
    else []

def extraActions (scope : Scope) : List Action :=
  Action.check (u.plan.place? u.api.dirExtra) ++
    (u.plan.placesOf u.api.dirExtra).map fun directory => saveModel directory (u.extraModel scope)

def responseActions (scope : Scope) : List Action :=
  Action.check u.responseFound ++
  [saveModel u.site.directory (Prod.fst <$> u.responseModel),
    saveModel u.site.directory (Prod.fst <$> u.entityModel),
    .claim (u.mapper scope).first.2.2] ++
  (if u.site.wantsTests u.plan then
    [.save (u.site.testDirectory.child (u.site.testSubject u.api).responsePath)
      (u.responseTest scope)]
  else []) ++ u.extraActions scope

/-- The fragments of the layers, where the project has a name. -/
def layerFragments (project : Except Failure String) : Except Failure (List (Twin Aggregate.Fragment)) :=
  project.bind fun project =>
    ((u.context project).traverse Layer.Context.fragments).map Twin.elements

def layerActions : Except Failure String → List Action
  | .error failure => [.fail failure]
  | .ok project =>
    .call project ::
      match u.layerFragments (.ok project) with
      | .error failure => [.fail failure]
      | .ok _ => [.save (u.site.directory.child (u.context project).first.useCasePath)
          (Layer.Context.useCase <$> u.context project)]

def patches (fragments : List (Twin Aggregate.Fragment)) : List Action :=
  fragments.map fun fragment =>
    .patch (u.site.directory.child fragment.first.relativePath) fragment

def mapperFragments (scope : Scope) : List (Twin Aggregate.Fragment) :=
  if u.api.returnsModel then [Prod.fst <$> u.mapper scope] else []

/-- The fragments of an API whose own files are written. -/
def fragments (scope : Scope) (project : Except Failure String) : List (Twin Aggregate.Fragment) :=
  u.mapperFragments scope ++
    if u.site.wantsLayers u.plan then (u.layerFragments project).toOption.getD [] else []

/-- What is written before the layers. -/
def models (scope : Scope) : List Action :=
  u.bodyActions ++ if u.api.returnsModel then u.responseActions scope else []

def actions (scope : Scope) (project : Except Failure String) : List Action :=
  u.models scope ++ (if u.site.wantsLayers u.plan then u.layerActions project else []) ++
    u.patches (u.fragments scope project)

end Draft

namespace ApiUnit

/-- The API of an entry, if it is accepted. -/
def apiOf (site : Site) (name : String) (raw : Json) : Except Failure Api :=
  (Validation.buildApi (.str name) raw site.context).bind Prod.snd

/-- An accepted API has the name of its entry, which is a good one. -/
theorem name_of_apiOf {site : Site} {name : String} {raw : Json} {api : Api}
    (h : apiOf site name raw = .ok api) :
    api.name = name ∧ Validation.isApiName api.name = true := by
  rw [apiOf] at h
  cases hbuilt : Validation.buildApi (.str name) raw site.context with
  | error failure =>
      rw [hbuilt] at h
      contradiction
  | ok built =>
      obtain ⟨warnings, result⟩ := built
      obtain rfl : result = .ok api := by
        rw [hbuilt] at h
        exact h
      obtain ⟨hname, hvalid⟩ := Validation.name_of_buildApi hbuilt
      exact ⟨hname, hname.symm ▸ hvalid⟩

/-- The entry is accepted, and the samples are read on their own. -/
def draftOn (d : Disk) (plan : Plan) (site : Site) (name : String) (raw : Json) :
    Except Failure Draft := do
  let api ← apiOf site name raw
  let samples ← samplesOn d plan api
  return { plan, site, api, samples }

def script (draft : Except Failure Draft) (scope : Scope) (project : Except Failure String) :
    List Action :=
  match draft with
  | .error failure => [.fail failure]
  | .ok u => u.actions scope project

/-! ### A unit works its script off -/

section Performs

variable (u : Draft) (w : Workspace)

theorem performs_saveModel (plan : Plan) (directory : Disk.Location) (file : Twin Model.File)
    (w : Workspace) :
    Performs plan.mode (saveModel plan directory file) w [Draft.saveModel directory file] () :=
  performs_save plan w _ _

theorem performs_wanted {mode : Disk.WriteMode} {t : Task Unit} {as : List Action} (wanted : Bool)
    (h : Performs mode t w as ()) :
    Performs mode (if wanted then t else pure ()) w (if wanted then as else []) () := by
  cases wanted with
  | true => exact h
  | false => exact performs_pure mode w ()

theorem performs_saveBody :
    Performs u.plan.mode (saveBody u.plan u.site u.api u.samples) w u.bodyActions () := by
  refine performs_check fun fields hfields => ?_
  obtain rfl : fields = u.bodyFields :=
    Twin.eq_map_of_traverse (fun _ _ => Sample.eq_of_fieldsOf_obj) hfields
  have hmodel := performs_saveModel u.plan u.site.directory (Prod.fst <$> u.bodyModel) w
  have htest := fun w => performs_wanted w (u.site.wantsTests u.plan) (performs_save u.plan w
    (u.site.testDirectory.child (u.site.testSubject u.api).bodyPath) u.bodyTest)
  exact hmodel.andThen fun w' _ _ => htest w'

/-- The same with something after it. -/
theorem performs_wanted_andThen {α : Type} {mode : Disk.WriteMode} {t : Task Unit} {t' : Task α}
    {as bs : List Action} {a : α} (wanted : Bool) (h : Performs mode t w as ())
    (hnext : ∀ w, Performs mode t' w bs a) :
    Performs mode (if wanted then t >>= fun _ => t' else t') w
      ((if wanted then as else []) ++ bs) a := by
  cases wanted with
  | true => exact h.andThen fun w' _ _ => hnext w'
  | false => exact hnext w

theorem performs_saveExtra (scope : Scope) :
    Performs u.plan.mode (saveExtra u.plan u.api (u.extraModel scope)) w (u.extraActions scope) () := by
  refine performs_check fun place hplace => ?_
  rw [Plan.placesOf, hplace]
  cases place with
  | none => exact performs_pure _ w ()
  | some directory => exact performs_saveModel u.plan directory (u.extraModel scope) w

theorem performs_saveResponse :
    Performs u.plan.mode (saveResponse u.plan u.site u.api u.samples) w
      (u.responseActions w.memory.scope) (Prod.fst <$> u.mapper w.memory.scope) := by
  have hresponse := performs_saveModel u.plan u.site.directory (Prod.fst <$> u.responseModel) w
  have hentity := performs_saveModel u.plan u.site.directory (Prod.fst <$> u.entityModel)
  have hextra := fun w' => (performs_saveExtra u w' w.memory.scope).andThen fun w' _ _ =>
    performs_pure u.plan.mode w' (Prod.fst <$> u.mapper w.memory.scope)
  have htest := fun w' => performs_wanted_andThen w' (u.site.wantsTests u.plan) (performs_save u.plan
    w' (u.site.testDirectory.child (u.site.testSubject u.api).responsePath)
    (u.responseTest w.memory.scope)) hextra
  have hclaim := fun w' => (performs_useScope u.plan.mode w'
    (u.mapper w.memory.scope).first.2.2).andThen fun w' _ _ => htest w'
  have hactions : u.responseActions w.memory.scope =
      Action.check u.responseFound ++
        ([Draft.saveModel u.site.directory (Prod.fst <$> u.responseModel)] ++
          ([Draft.saveModel u.site.directory (Prod.fst <$> u.entityModel)] ++
            ([.claim (u.mapper w.memory.scope).first.2.2] ++
              ((if u.site.wantsTests u.plan then
                [.save (u.site.testDirectory.child (u.site.testSubject u.api).responsePath)
                  (u.responseTest w.memory.scope)] else []) ++
                (u.extraActions w.memory.scope ++ []))))) := by
    simp only [Draft.responseActions, List.append_nil, List.cons_append, List.nil_append,
      List.append_assoc]
  rw [hactions]
  refine performs_check fun fields hfields => ?_
  obtain rfl : fields = u.responseFields :=
    Twin.eq_map_of_traverse (fun _ _ => Sample.eq_of_fieldsOf_obj) hfields
  refine hresponse.andThen fun w₁ hrun₁ _ => (hentity w₁).andThen fun w₂ hrun₂ _ => ?_
  have hscope : w₂.memory.scope = w.memory.scope := by
    have hrun := (Action.performAll_append_ok hrun₁).trans hrun₂
    refine Action.scope_performAll hrun ?_
    simp [Draft.saveModel]
  refine performs_get ?_
  rw [hscope]
  exact hclaim w₂

theorem performs_patches (fragments : List (Twin Aggregate.Fragment)) :
    Performs u.plan.mode (fragments.forM (Task.patch u.plan u.site.directory)) w
      (u.patches fragments) () := by
  induction fragments generalizing w with
  | nil => exact performs_pure _ _ _
  | cons fragment fragments ih =>
      exact (performs_patch u.plan w u.site.directory fragment).andThen fun w' _ _ => ih w'

theorem performs_saveLayers {d : Disk} {known : String} {project : Except Failure String}
    (hnamed : Named d u.plan known w.project.name)
    (hsame : NamedAlike u.plan d w.project.disk)
    (hproject : nameOn d u.plan known = project) :
    Performs u.plan.mode (saveLayers u.plan u.site u.api u.samples) w (u.layerActions project)
      ((u.layerFragments project).toOption.getD []) := by
  cases project with
  | error failure =>
      exact performs_error (exec_projectName_error hnamed hsame hproject) (.refl w) _ _ [] _
  | ok project =>
      refine (performs_projectName hnamed hsame hproject).bind fun w' _ _ _ => ?_
      dsimp only
      cases hfragments : (u.context project).traverse Layer.Context.fragments with
      | error failure =>
          have hfail : exec (Task.ofExcept ((u.context project).traverse Layer.Context.fragments))
              w' = (.error failure, w') := by
            rw [exec_ofExcept, hfragments]
          have hnone : u.layerFragments (.ok project) = .error failure := by
            rw [Draft.layerFragments, Except.bind, hfragments]
            rfl
          rw [hnone]
          exact performs_error hfail (.refl w') _ _ [] _
      | ok fragments =>
          have hsome : u.layerFragments (.ok project) = .ok fragments.elements := by
            rw [Draft.layerFragments, Except.bind, hfragments]
            rfl
          rw [hsome]
          refine performs_known hfragments ?_
          exact (performs_save u.plan w' _ _).andThen fun w'' _ _ => performs_pure _ w'' _

/-- The layers if they are wanted, and then the files that are shared. -/
theorem performs_rest {d : Disk} {known : String} {project : Except Failure String}
    (hnamed : Named d u.plan known w.project.name)
    (hsame : u.site.wantsLayers u.plan = true → NamedAlike u.plan d w.project.disk)
    (hproject : nameOn d u.plan known = project) (mapper : List (Twin Aggregate.Fragment)) :
    Performs u.plan.mode (do
      let layers ← if u.site.wantsLayers u.plan then saveLayers u.plan u.site u.api u.samples
        else pure []
      (mapper ++ layers).forM (Task.patch u.plan u.site.directory)) w
      ((if u.site.wantsLayers u.plan then u.layerActions project else []) ++
        u.patches (mapper ++ if u.site.wantsLayers u.plan then
          (u.layerFragments project).toOption.getD [] else [])) () := by
  cases hlayers : u.site.wantsLayers u.plan with
  | true =>
      exact (performs_saveLayers u w hnamed (hsame hlayers) hproject).bind fun w' _ _ _ =>
        performs_patches u w' _
  | false => exact performs_patches u w _

/-- The models are saved, and the names of their mapper are claimed, unless a sample is nested too deeply
or the place of the extra model is not known. -/
theorem forall_mem_models {P : Action → Prop} {scope : Scope} (hdeep : P (.fail .tooManyCalls))
    (hhome : P (.fail .unknownHome)) (hsave : ∀ place content, P (.save place content))
    (hclaim : P (.claim (u.mapper scope).first.2.2)) : ∀ a ∈ u.models scope, P a := by
  have hfound : ∀ (part : Samples → Entries) (source : Option String),
      ∀ a ∈ Action.check (u.samples.traverse fun s => Sample.fieldsOf (.obj (part s)) source), P a :=
    fun part source => Action.forall_mem_check fun failure h => by
      rwa [FailsOnly.traverse (fun _ => Sample.failsOnly_fieldsOf_obj _ source) u.samples failure h]
  have hextra : ∀ a ∈ u.extraActions scope, P a := by
    refine List.forall_mem_append.mpr ⟨Action.forall_mem_check fun failure h => ?_,
      List.forall_mem_map.mpr fun _ _ => hsave _ _⟩
    rwa [failsOnly_place? u.plan u.api.dirExtra failure h]
  have htest : ∀ (place : Disk.Location) (content : Twin String),
      ∀ a ∈ (if u.site.wantsTests u.plan then [Action.save place content] else []), P a := by
    intro place content
    split
    · exact List.forall_mem_singleton.mpr (hsave _ _)
    · exact List.forall_mem_nil _
  rw [Draft.models, Draft.bodyActions]
  refine List.forall_mem_append.mpr ⟨List.forall_mem_append.mpr
    ⟨hfound _ _, List.forall_mem_cons.mpr ⟨hsave _ _, htest _ _⟩⟩, ?_⟩
  split
  · rw [Draft.responseActions]
    refine List.forall_mem_append.mpr ⟨List.forall_mem_append.mpr ⟨List.forall_mem_append.mpr
      ⟨hfound _ _, ?_⟩, htest _ _⟩, hextra⟩
    exact List.forall_mem_cons.mpr ⟨hsave _ _, List.forall_mem_cons.mpr ⟨hsave _ _,
      List.forall_mem_singleton.mpr hclaim⟩⟩
  · exact List.forall_mem_nil _

theorem call_not_mem_models (scope : Scope) :
    ∀ a ∈ u.models scope, ∀ name, a ≠ .call name :=
  forall_mem_models u (fun _ => nofun) (fun _ => nofun) (fun _ _ _ => nofun) fun _ => nofun

theorem claim_not_mem_bodyActions : ∀ a ∈ u.bodyActions, ∀ scope, a ≠ .claim scope := by
  refine List.forall_mem_append.mpr ⟨Action.forall_mem_check fun _ _ _ => nofun, ?_⟩
  rintro a ha scope rfl
  simp only [Draft.saveModel] at ha
  cases u.site.wantsTests u.plan <;> simp at ha

/-- The own files of an API, and then the files that it shares. -/
theorem performs_draft {d : Disk} {known : String} {project : Except Failure String}
    (hnamed : Named d u.plan known w.project.name)
    (hsame : ∀ b, Action.performAll u.plan.mode w.bench (u.models w.memory.scope) = (.ok (), b) →
      u.site.wantsLayers u.plan = true → NamedAlike u.plan d b.disk)
    (hproject : nameOn d u.plan known = project) :
    Performs u.plan.mode (do
      saveBody u.plan u.site u.api u.samples
      let mapper ← if u.api.returnsModel then
          List.singleton <$> saveResponse u.plan u.site u.api u.samples
        else pure []
      let layers ← if u.site.wantsLayers u.plan then saveLayers u.plan u.site u.api u.samples
        else pure []
      (mapper ++ layers).forM (Task.patch u.plan u.site.directory)) w
      (u.actions w.memory.scope project) () := by
  have hnamed' : ∀ b, Action.performAll u.plan.mode w.bench (u.models w.memory.scope) =
      (.ok (), b) → Named d u.plan known b.name := by
    intro b hrun
    have hname : b.name = w.project.name :=
      Action.name_performAll hrun (call_not_mem_models u w.memory.scope)
    rwa [hname]
  have hbody := performs_saveBody u w
  cases hmodel : u.api.returnsModel with
  | false =>
      have hmodels : u.models w.memory.scope = u.bodyActions := by simp [Draft.models, hmodel]
      simp only [Draft.actions, Draft.fragments, Draft.mapperFragments, hmodel, hmodels,
        List.append_assoc] at hnamed' hsame ⊢
      exact hbody.andThen fun w' hrun _ =>
        performs_rest u w' (hnamed' _ hrun) (hsame _ hrun) hproject []
  | true =>
      have hmodels : u.models w.memory.scope =
          u.bodyActions ++ u.responseActions w.memory.scope := by simp [Draft.models, hmodel]
      simp only [Draft.actions, Draft.fragments, Draft.mapperFragments, hmodel, hmodels,
        List.append_assoc] at hnamed' hsame ⊢
      refine hbody.andThen fun w₁ hrun₁ _ => ?_
      have hscope : w₁.memory.scope = w.memory.scope :=
        Action.scope_performAll hrun₁ (claim_not_mem_bodyActions u)
      have hresponse := (performs_saveResponse u w₁).map List.singleton
      rw [hscope] at hresponse
      refine hresponse.bind fun w₂ _ hrun₂ _ => ?_
      have hrun := (Action.performAll_append_ok hrun₁).trans hrun₂
      exact performs_rest u w₂ (hnamed' _ hrun) (hsame _ hrun) hproject _

end Performs

theorem exec_checkedApi (site : Site) (name : String) (raw : Json) (w : Workspace) :
    ∃ w', exec (checkedApi site name raw) w = (apiOf site name raw, w') ∧ Quiet w w' := by
  rw [checkedApi, apiOf]
  cases Validation.buildApi (.str name) raw site.context with
  | error failure => exact ⟨w, rfl, .refl w⟩
  | ok built =>
      obtain ⟨warnings, api⟩ := built
      obtain ⟨w', htold, hquiet⟩ := quiet_tellWarnings .checking
        (warnings.map fun w => s!"{w.message} (api={name})") w
      refine ⟨w', ?_, hquiet⟩
      change exec (tellWarnings .checking _ >>= fun _ => Task.ofExcept api) w = _
      rw [exec_bind_ok htold]
      exact exec_ofExcept api w'

/-- A unit works its script off, as long as its samples and the project's name are what they were when
the page was begun. -/
theorem exec_task {d : Disk} {known : String} {project : Except Failure String} {plan : Plan}
    {site : Site} {name : String} {raw : Json} {w : Workspace} (hof : w.memory.samples.Of d)
    (hnamed : Named d plan known w.project.name) (hproject : nameOn d plan known = project)
    (hsamples : ∀ api, apiOf site name raw = .ok api →
      ∀ place ∈ samplePlaces plan api, Disk.SameText d w.project.disk place)
    (halike : ∀ u, draftOn d plan site name raw = .ok u →
      ∀ b, Action.performAll plan.mode w.bench (u.models w.memory.scope) = (.ok (), b) →
        site.wantsLayers plan = true → NamedAlike plan d b.disk) :
    ∃ w', exec (task plan site name raw) w = ((Action.performAll plan.mode w.bench
        (script (draftOn d plan site name raw) w.memory.scope project)).1, w') ∧
      w'.bench = (Action.performAll plan.mode w.bench
        (script (draftOn d plan site name raw) w.memory.scope project)).2 ∧
      w'.memory.samples.Of d := by
  obtain ⟨w₁, hchecked, hquiet⟩ := exec_checkedApi site name raw w
  rw [task]
  cases hapi : apiOf site name raw with
  | error failure =>
      have hdraft : draftOn d plan site name raw = .error failure := by
        rw [draftOn, hapi]
        rfl
      rw [hapi] at hchecked
      rw [hdraft]
      exact ⟨w₁, exec_bind_error hchecked _, hquiet.bench, hquiet.samples ▸ hof⟩
  | ok api =>
      rw [hapi] at hchecked
      rw [exec_bind_ok hchecked]
      have hdisk : w₁.project.disk = w.project.disk := congrArg Bench.disk hquiet.bench
      obtain ⟨w₂, hread, hlooked⟩ := exec_samples (hquiet.samples ▸ hof)
        (hdisk.symm ▸ hsamples api hapi)
      have hbench : w₂.bench = w.bench := hlooked.bench.trans hquiet.bench
      cases hresult : samplesOn d plan api with
      | error failure =>
          have hdraft : draftOn d plan site name raw = .error failure := by
            rw [draftOn, hapi]
            simp only [bind, Except.bind, hresult]
          rw [hresult] at hread
          rw [hdraft]
          exact ⟨w₂, exec_bind_error hread _, hbench, hlooked.samples⟩
      | ok samples =>
          let u : Draft := { plan, site, api, samples }
          have hdraft : draftOn d plan site name raw = .ok u := by
            rw [draftOn, hapi]
            simp only [bind, Except.bind, hresult]
            rfl
          rw [hresult] at hread
          rw [exec_bind_ok hread, hdraft]
          have hscope : w₂.memory.scope = w.memory.scope := congrArg Bench.scope hbench
          have hname : w₂.project.name = w.project.name := congrArg Bench.name hbench
          have hperforms := performs_draft u w₂ (hname.symm ▸ hnamed)
            (by
              rw [hbench, hscope]
              exact halike u hdraft)
            hproject
          obtain ⟨houtcome, hafter, hsame⟩ := hperforms
          rw [hbench, hscope] at houtcome hafter
          refine ⟨_, Prod.ext (houtcome.trans ?_) rfl, hafter, hsame ▸ hlooked.samples⟩
          exact congrFun Except.map_id _

/-! ### Units on any disk -/

/-- How far a unit gets: its entry is refused, its samples cannot be used, or it sets about writing. -/
inductive Drafted (plan : Plan) (site : Site) (name : String) (raw : Json) (w : Workspace) :
    Except Failure Draft → Prop
  | refused {failure : Failure} (h : apiOf site name raw = .error failure) :
      Drafted plan site name raw w (.error failure)
  | unread {api : Api} {failure : Failure} {w₁ w₂ : Workspace} (hapi : apiOf site name raw = .ok api)
      (hquiet : Quiet w w₁) (h : exec (samples plan api) w₁ = (.error failure, w₂)) :
      Drafted plan site name raw w (.error failure)
  | read {api : Api} (hapi : apiOf site name raw = .ok api) (samples : Twin Samples) :
      Drafted plan site name raw w (.ok { plan, site, api, samples })

/-- Whatever is on the disk, a unit works some script off. -/
theorem exists_script (plan : Plan) (site : Site) (name : String) (raw : Json) (w : Workspace) :
    ∃ draft d known, Drafted plan site name raw w draft ∧
      (exec (task plan site name raw) w).1 = (Action.performAll plan.mode w.bench
        (script draft w.memory.scope (nameOn d plan known))).1 ∧
      (exec (task plan site name raw) w).2.bench = (Action.performAll plan.mode w.bench
        (script draft w.memory.scope (nameOn d plan known))).2 ∧
      (w.memory.samples.Sound → (exec (task plan site name raw) w).2.memory.samples.Sound) := by
  obtain ⟨w₁, hchecked, hquiet⟩ := exec_checkedApi site name raw w
  rw [task]
  cases hapi : apiOf site name raw with
  | error failure =>
      rw [hapi] at hchecked
      rw [exec_bind_error hchecked]
      exact ⟨.error failure, w.project.disk, "", .refused hapi, rfl, hquiet.bench,
        fun hsound => hquiet.samples ▸ hsound⟩
  | ok api =>
      rw [hapi] at hchecked
      rw [exec_bind_ok hchecked]
      cases hsamples : exec (samples plan api) w₁ with
      | mk outcome w₂ =>
          have hbench : w₂.bench = w.bench := by
            have hkept := ((readable_bench w.bench).samples plan api w₁ hquiet.bench).2
            rwa [hsamples] at hkept
          have hsound : w.memory.samples.Sound → w₂.memory.samples.Sound := by
            intro hsound
            have hkept := (readable_sound.samples plan api w₁ (hquiet.samples ▸ hsound)).2
            rwa [hsamples] at hkept
          cases outcome with
          | error failure =>
              rw [exec_bind_error hsamples]
              exact ⟨.error failure, w.project.disk, "", .unread hapi hquiet hsamples, rfl, hbench,
                hsound⟩
          | ok samples =>
              rw [exec_bind_ok hsamples]
              let u : Draft := { plan, site, api, samples }
              -- the name is looked up once the models are written
              let d := (Action.performAll plan.mode w₂.bench (u.models w₂.memory.scope)).2.disk
              have halike : ∀ b, Action.performAll plan.mode w₂.bench (u.models w₂.memory.scope) =
                  (.ok (), b) → site.wantsLayers plan = true → NamedAlike plan d b.disk := by
                intro b hrun _
                have hdisk : d = b.disk := congrArg (fun outcome => outcome.2.disk) hrun
                rw [NamedAlike, hdisk]
              obtain ⟨houtcome, hafter, hkept⟩ := performs_draft u w₂
                (Or.inl rfl : Named d plan w₂.project.name w₂.project.name) halike rfl
              have hscope : w₂.memory.scope = w.memory.scope := congrArg Bench.scope hbench
              rw [hbench, hscope] at houtcome hafter
              refine ⟨.ok u, d, w₂.project.name, .read hapi samples, houtcome.trans ?_, hafter,
                fun h => hkept ▸ hsound h⟩
              exact congrFun Except.map_id _

/-- A unit that succeeds worked off the script of what it read. -/
theorem performAll_of_exec_task {plan : Plan} {site : Site} {name : String} {raw : Json} {api : Api}
    {w w' : Workspace} (hapi : apiOf site name raw = .ok api)
    (h : exec (task plan site name raw) w = (.ok (), w')) :
    ∃ samples project, Action.performAll plan.mode w.bench
      (Draft.actions { plan, site, api, samples } w.memory.scope project) = (.ok (), w'.bench) := by
  obtain ⟨draft, d, known, hdrafted, houtcome, hbench, -⟩ := exists_script plan site name raw w
  rw [h] at houtcome hbench
  cases hdrafted with
  | refused _ => contradiction
  | unread _ _ _ => contradiction
  | read hread samples =>
      obtain rfl := Except.ok.inj (hapi.symm.trans hread)
      exact ⟨samples, _, Prod.ext houtcome.symm hbench.symm⟩

end ApiUnit

end Run

end DartScaffold
