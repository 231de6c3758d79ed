import DartScaffold.Proofs.Layer.Reference
import DartScaffold.Proofs.Mapper.Agreement
import DartScaffold.Proofs.Mapper.WellFormed
import DartScaffold.Proofs.Run.Targets

/-!
The files of an API fit together. Whatever a file refers to is written by the unit that writes the file,
and the model classes that the layers name are the root classes of the model files that they import. The
names of the files and of the classes are made in many places, each from the name of the API; that they
agree is shown here.
-/

namespace DartScaffold.Run

open Aggregate (FileKind Fragment)
open ClassName (Registry Scope)
open Dart (LeadTo Mentions resolve?)
open Disk (Location)

/-! ### What a unit contributes to a file -/

/-- What a unit puts into a file that refers to others. -/
structure Source where
  /-- There is none for the use case, which is not shared. -/
  kind : Option FileKind
  path : String
  /-- The lines in which its directives are. -/
  lines : List String
  code : List String

namespace Source

def ofFragment (f : Fragment) : Source where
  kind := some f.kind
  path := f.relativePath
  lines := f.imports ++ Text.splitLines f.skeleton
  code := f.blocks.map Prod.snd

def ofUseCase (c : Layer.Context) : Source where
  kind := none
  path := c.useCasePath
  lines := Text.splitLines c.useCase
  code := [c.useCase]

end Source

namespace Draft

variable (u : Draft) (scope : Scope) (project : String)

def sources : List Source :=
  .ofUseCase (u.context project).first ::
    (u.fragments scope (.ok project)).map fun f => .ofFragment f.first

/-- Where the unit writes. -/
def written : List Location :=
  (u.actions scope (.ok project)).filterMap Action.place?

/-- The model files whose classes a source names, each with the end of the name of its root class. -/
def modelsOf : Option FileKind → List (Twin (Model.File × Registry) × String)
  | some .mapper => []
  | some .remoteDataSource =>
    (u.bodyModel, "Body") :: if u.api.returnsModel then [(u.responseModel, "Response")] else []
  | _ => (u.bodyModel, "Body") :: if u.api.returnsModel then [(u.entityModel, "Entity")] else []

/-- The source names the root class of a model file, which the unit saves and the source imports. -/
structure Uses (source : Source) (model : Twin (Model.File × Registry)) (name : String) : Prop where
  mentioned : ∃ code ∈ source.code, Mentions code name
  root : (Prod.fst <$> model).first.rootClass? = some name
  saved : saveModel u.site.directory (Prod.fst <$> model) ∈ u.actions scope (.ok project)
  imported : ∃ ref ∈ Dart.references source.lines, resolve? source.path ref =
    some (Location.ofString (Prod.fst <$> model).first.relativePath).parts

/-- Nothing that the files refer to is missing. -/
structure Closed : Prop where
  written : ∀ source ∈ u.sources scope project,
    u.site.directory.child source.path ∈ u.written scope project
  references : ∀ source ∈ u.sources scope project, ∀ ref ∈ Dart.references source.lines,
    ∃ path, resolve? source.path ref = some (Location.ofString path).parts ∧
      u.site.directory.child path ∈ u.written scope project
  classes : ∀ source ∈ u.sources scope project, ∀ model ∈ u.modelsOf source.kind,
    u.Uses scope project source model.1 (Text.pascalCase u.api.name ++ model.2)

/-! ### The model files -/

def importedModels : List (Twin (Model.File × Registry) × String) :=
  (u.bodyModel, "Body") ::
    if u.api.returnsModel then [(u.responseModel, "Response"), (u.entityModel, "Entity")] else []

theorem modelsOf_subset (kind : Option FileKind) : u.modelsOf kind ⊆ u.importedModels := by
  rw [modelsOf.eq_def, importedModels]
  cases u.api.returnsModel <;> split <;> simp

theorem emit_ensureNodes (policy : Model.Policy) (r : Registry) (options : Model.BodyOptions)
    (path : String) (shape : Shape) :
    Model.emit policy (r.ensureNodes shape.nodes) options path shape =
      Model.emit policy r options path shape := by
  rw [Model.emit, Model.emit, Registry.ensureNodes_ensureNodes]

theorem saveModel_mem_models {model : Twin (Model.File × Registry) × String}
    (h : model ∈ u.importedModels) : saveModel u.site.directory (Prod.fst <$> model.1) ∈ u.models scope := by
  rw [importedModels] at h
  rw [models, bodyActions]
  rcases List.mem_cons.mp h with rfl | h
  · exact List.mem_append_left _ (List.mem_append_right _ List.mem_cons_self)
  · cases hmodel : u.api.returnsModel with
    | false => simp [hmodel] at h
    | true =>
        simp only [hmodel, if_true, List.mem_cons, List.not_mem_nil, or_false] at h
        refine List.mem_append_right _ ?_
        rw [if_pos rfl, responseActions]
        rcases h with rfl | rfl <;> simp

theorem rootClass?_of_mem {model : Twin (Model.File × Registry) × String}
    (hname : Validation.isApiName u.api.name = true) (h : model ∈ u.importedModels) :
    (Prod.fst <$> model.1).first.rootClass? = some (Text.pascalCase u.api.name ++ model.2) := by
  have hstem := Validation.classStem_of_isApiName hname
  have hresponse : u.responseModel.first = Model.emit u.responsePolicy { api := u.api.name } {}
      (ApiUnit.responsePath u.api) u.shape.first := Aggregate.first_map _ _
  have hbody : u.bodyModel.first = Model.emit u.bodyPolicy { api := u.api.name }
      (ApiUnit.bodyOptions u.api) (ApiUnit.bodyPath u.api) (.object u.bodyFields.first) :=
    Aggregate.first_map _ _
  have hentity : u.entityModel.first = Model.emit { kind := .entity } { api := u.api.name } {}
      (ApiUnit.entityPath u.api) u.shape.first := by
    rw [entityModel, Twin.first_bind, Twin.first_bind]
    change Model.emit _ u.responseModel.first.2 _ _ _ = _
    rw [hresponse]
    exact emit_ensureNodes _ _ _ _ _
  rw [importedModels] at h
  rw [Aggregate.first_map, ← hstem]
  rcases List.mem_cons.mp h with rfl | h
  · rw [hbody]
    exact Model.rootClass?_emit u.api.name ClassName.reserved _ rfl _ _
  · cases hmodel : u.api.returnsModel with
    | false => simp [hmodel] at h
    | true =>
        simp only [hmodel, if_true, List.mem_cons, List.not_mem_nil, or_false] at h
        rcases h with rfl | rfl
        · rw [hresponse, shape_first]
          exact Model.rootClass?_emit u.api.name ClassName.reserved _ rfl _ _
        · rw [hentity, shape_first]
          exact Model.rootClass?_emit u.api.name ClassName.reserved _ rfl _ _

theorem relativePath_models {c : Layer.Context} (hapi : c.api = u.api) :
    (Prod.fst <$> u.bodyModel).first.relativePath = c.bodyPath ∧
      (Prod.fst <$> u.responseModel).first.relativePath = c.responsePath ∧
      (Prod.fst <$> u.entityModel).first.relativePath = c.entityPath := by
  rw [relativePath_bodyModel, relativePath_responseModel, relativePath_entityModel, ApiUnit.fileStem,
    ← hapi]
  exact ⟨rfl, rfl, rfl⟩

/-! ### What is written -/

section Written

variable {fs : List (Twin Fragment)} {l : Location}

theorem mem_written {a : Action} (ha : a ∈ u.actions scope (.ok project)) (hplace : a.place? = some l) :
    l ∈ u.written scope project :=
  List.mem_filterMap.mpr ⟨a, ha, hplace⟩

theorem mem_actions_of_mem_models {a : Action} (ha : a ∈ u.models scope) :
    a ∈ u.actions scope (.ok project) :=
  List.mem_append_left _ (List.mem_append_left _ ha)

theorem fragment_mem_written {f : Twin Fragment} (hf : f ∈ u.fragments scope (.ok project)) :
    u.site.directory.child f.first.relativePath ∈ u.written scope project :=
  u.mem_written scope project (List.mem_append_right _ (List.mem_map_of_mem hf)) rfl

theorem model_mem_written {model : Twin (Model.File × Registry) × String}
    (h : model ∈ u.importedModels) :
    u.site.directory.child (Prod.fst <$> model.1).first.relativePath ∈ u.written scope project :=
  u.mem_written scope project
    (u.mem_actions_of_mem_models scope project (u.saveModel_mem_models scope h)) rfl

variable (hlayers : u.site.wantsLayers u.plan = true) (hfs : u.layerFragments (.ok project) = .ok fs)

include hlayers hfs

theorem fragments_eq : u.fragments scope (.ok project) = u.mapperFragments scope ++ fs := by
  rw [fragments, if_pos hlayers, hfs]
  rfl

theorem useCase_mem_written :
    u.site.directory.child (u.context project).first.useCasePath ∈ u.written scope project := by
  have hsave : .save (u.site.directory.child (u.context project).first.useCasePath)
      (Layer.Context.useCase <$> u.context project) ∈ u.actions scope (.ok project) := by
    refine List.mem_append_left _ (List.mem_append_right _ ?_)
    rw [if_pos hlayers, layerActions, hfs]
    simp
  exact u.mem_written scope project hsave rfl

/-- What the layers refer to. -/
theorem layerPaths_written :
    (∀ path ∈ [(u.context project).first.bodyPath, (u.context project).first.sourcePath,
      (u.context project).first.repositoryPath],
        u.site.directory.child path ∈ u.written scope project) ∧
    (u.api.returnsModel = true →
      ∀ path ∈ [(u.context project).first.responsePath, (u.context project).first.entityPath,
        Mapper.fileName], u.site.directory.child path ∈ u.written scope project) := by
  obtain ⟨name, source, hname, hsource, hfirst⟩ := u.layerFragments_ok hfs
  obtain rfl := Except.ok.inj hname
  obtain ⟨-, -, hpath, -⟩ := dataSource_ok hsource
  obtain ⟨hapi, -⟩ := u.context_first project
  have hshared : ∀ f ∈ fs.map Twin.first,
      u.site.directory.child f.relativePath ∈ u.written scope project := by
    intro f hf
    obtain ⟨g, hg, rfl⟩ := List.mem_map.mp hf
    refine u.fragment_mem_written scope project ?_
    rw [u.fragments_eq scope project hlayers hfs]
    exact List.mem_append_right _ hg
  rw [hfirst] at hshared
  generalize (u.context project).first = c at hpath hapi hshared
  simp only [List.forall_mem_cons] at hshared
  obtain ⟨hsource', -, hrepository, -⟩ := hshared
  rw [hpath] at hsource'
  obtain ⟨hbodyPath, hresponsePath, hentityPath⟩ := u.relativePath_models hapi
  have hmodels := @u.model_mem_written scope project
  refine ⟨?_, fun hmodel => ?_⟩
  · have hbody := @hmodels (u.bodyModel, "Body") List.mem_cons_self
    rw [hbodyPath] at hbody
    simp only [List.forall_mem_cons]
    exact ⟨hbody, hsource', hrepository, by simp⟩
  · have hresponse := @hmodels (u.responseModel, "Response") (by simp [importedModels, hmodel])
    have hentity := @hmodels (u.entityModel, "Entity") (by simp [importedModels, hmodel])
    have hmapper := @u.fragment_mem_written scope project (Prod.fst <$> u.mapper scope)
      (by simp [fragments, mapperFragments, hmodel])
    have hfile : (Prod.fst <$> u.mapper scope).first.relativePath = Mapper.fileName := by
      rw [Aggregate.first_map, mapper_first]
      rfl
    rw [hresponsePath] at hresponse
    rw [hentityPath] at hentity
    rw [hfile] at hmapper
    simp only [List.forall_mem_cons]
    exact ⟨hresponse, hentity, hmapper, by simp⟩

end Written

/-! ### Each file -/

/-- What a source refers to is written, and the model files whose classes it names are among it. -/
structure Fits (source : Source) (paths : List String) : Prop where
  leadTo : LeadTo source.path source.lines paths
  written : ∀ path ∈ paths, u.site.directory.child path ∈ u.written scope project
  models : ∀ model ∈ u.modelsOf source.kind,
    (Prod.fst <$> model.1).first.relativePath ∈ paths ∧
      ∃ code ∈ source.code, Mentions code (Text.pascalCase u.api.name ++ model.2)

section Fits

variable {u scope project} {c : Layer.Context} (hapi : c.api = u.api)

include hapi

/-- A file of the layers, which names the body's class and, for an answer with a model, one more. -/
theorem fits_layer {kind : Option FileKind} {path : String} {lines code paths : List String}
    {answer : Twin (Model.File × Registry)} {suffix : String}
    (hkind : u.modelsOf kind =
      (u.bodyModel, "Body") :: if u.api.returnsModel then [(answer, suffix)] else [])
    (hlead : LeadTo path lines paths)
    (hwritten : ∀ path ∈ paths, u.site.directory.child path ∈ u.written scope project)
    (hbody : c.bodyPath ∈ paths ∧ ∃ text ∈ code, Mentions text (c.apiClass ++ "Body"))
    (hanswer : u.api.returnsModel = true → (Prod.fst <$> answer).first.relativePath ∈ paths ∧
      ∃ text ∈ code, Mentions text (c.apiClass ++ suffix)) :
    u.Fits scope project { kind, path, lines, code } paths := by
  have hclass : c.apiClass = Text.pascalCase u.api.name := by
    rw [← hapi]
    rfl
  refine ⟨hlead, hwritten, ?_⟩
  rw [hkind, ← hclass]
  refine List.forall_mem_cons.mpr ⟨?_, fun model hmem => ?_⟩
  · rw [(u.relativePath_models hapi).1]
    exact hbody
  · cases hmodel : u.api.returnsModel with
    | false => simp [hmodel] at hmem
    | true =>
        rw [hmodel, if_pos rfl] at hmem
        obtain rfl := List.mem_singleton.mp hmem
        exact hanswer hmodel

/-- The mapper names its classes by the prefixes of its imports. -/
theorem fits_mapper (hmodels : ∀ path ∈ [c.responsePath, c.entityPath],
      u.site.directory.child path ∈ u.written scope project) :
    ∃ paths, u.Fits scope project (.ofFragment (Prod.fst <$> u.mapper scope).first) paths := by
  have hstem : ∀ r : Registry, r.api = u.api.name → Mapper.fileStem r = c.apiFile := by
    intro r hr
    rw [Mapper.fileStem, hr, ← hapi]
    rfl
  have hname := (Registry.extends_ensureNodes (r := { api := u.api.name }) u.shape.first.nodes).api
  have hlead := Mapper.leadTo_imports
    (Registry.ensureNodes { api := u.api.name } u.shape.first.nodes)
  rw [hstem _ hname] at hlead
  rw [Aggregate.first_map, mapper_first]
  exact ⟨_, hlead, hmodels, List.forall_mem_nil _⟩

variable (hfiles : ∀ path ∈ [c.bodyPath, c.sourcePath, c.repositoryPath],
    u.site.directory.child path ∈ u.written scope project)
  (hmodels : u.api.returnsModel = true →
    ∀ path ∈ [c.responsePath, c.entityPath, Mapper.fileName],
      u.site.directory.child path ∈ u.written scope project)

include hfiles hmodels

theorem fits_useCase : ∃ paths, u.Fits scope project (.ofUseCase c) paths := by
  obtain ⟨-, -, hentityPath⟩ := u.relativePath_models hapi
  obtain ⟨hbody, hentity⟩ := c.mentions_useCase
  have hkind : u.modelsOf none =
      (u.bodyModel, "Body") :: if u.api.returnsModel then [(u.entityModel, "Entity")] else [] := rfl
  have hlead := c.leadTo_useCase
  rw [hapi] at hentity hlead
  refine ⟨_, fits_layer hapi hkind hlead ?_ ⟨by simp, _, List.mem_cons_self, hbody⟩ fun hmodel =>
      ⟨by simp [hmodel, hentityPath], _, List.mem_cons_self, hentity hmodel⟩⟩
  cases hmodel : u.api.returnsModel <;> simp_all

theorem fits_dataSource {f : Fragment} (hf : c.dataSource = .ok f) :
    ∃ paths, u.Fits scope project (.ofFragment f) paths := by
  obtain ⟨hfile, -, hpath, hskeleton, himports, hblock⟩ := dataSource_ok hf
  obtain ⟨-, hresponsePath, -⟩ := u.relativePath_models hapi
  generalize hcode : Text.joinLines (c.signature _ c.apiMethod ";") = code at hblock
  obtain ⟨hbody, hresponse⟩ := c.mentions_dataSource hcode.symm
  have hmem : code ∈ f.blocks.map Prod.snd := List.mem_map_of_mem (f := Prod.snd) hblock
  have hkind : u.modelsOf (some f.kind) = (u.bodyModel, "Body") ::
      if u.api.returnsModel then [(u.responseModel, "Response")] else [] := by
    rw [hfile]
    rfl
  have hsource : c.sourcePath = f.relativePath := by
    rw [hpath]
    rfl
  have hlead := c.leadTo_dataSource
  rw [hapi] at hresponse hlead
  rw [hsource, ← himports, ← hskeleton] at hlead
  refine ⟨_, fits_layer hapi hkind hlead ?_ ⟨by simp, _, hmem, hbody⟩ fun hmodel =>
    ⟨by simp [hmodel, hresponsePath], _, hmem, hresponse hmodel⟩⟩
  cases hmodel : u.api.returnsModel <;> simp_all

theorem fits_repositoryImpl : ∃ paths, u.Fits scope project (.ofFragment c.repositoryImpl) paths := by
  obtain ⟨-, -, hentityPath⟩ := u.relativePath_models hapi
  obtain ⟨hbody, hentity⟩ := c.mentions_repositoryImpl
  have hkind : u.modelsOf (some c.repositoryImpl.kind) =
      (u.bodyModel, "Body") :: if u.api.returnsModel then [(u.entityModel, "Entity")] else [] := rfl
  have hlead := c.leadTo_repositoryImpl
  rw [hapi] at hentity hlead
  refine ⟨_, fits_layer hapi hkind hlead ?_ ⟨by simp, hbody⟩ fun hmodel =>
    ⟨by simp [hmodel, hentityPath], hentity hmodel⟩⟩
  cases hmodel : u.api.returnsModel <;> simp_all

theorem fits_repository : ∃ paths, u.Fits scope project (.ofFragment c.repository) paths := by
  obtain ⟨-, -, hentityPath⟩ := u.relativePath_models hapi
  obtain ⟨hbody, hentity⟩ := c.mentions_repository
  have hkind : u.modelsOf (some c.repository.kind) =
      (u.bodyModel, "Body") :: if u.api.returnsModel then [(u.entityModel, "Entity")] else [] := rfl
  have hlead := c.leadTo_repository
  rw [hapi] at hentity hlead
  refine ⟨_, fits_layer hapi hkind hlead ?_ ⟨by simp, hbody⟩ fun hmodel =>
    ⟨by simp [hmodel, hentityPath], hentity hmodel⟩⟩
  cases hmodel : u.api.returnsModel <;> simp_all

end Fits

/-! ### The whole unit -/

section Closed

variable {u scope} {project : String} {fs : List (Twin Fragment)}

theorem fits_of_mem_sources (hlayers : u.site.wantsLayers u.plan = true)
    (hfs : u.layerFragments (.ok project) = .ok fs) :
    ∀ source ∈ u.sources scope project, ∃ paths, u.Fits scope project source paths := by
  obtain ⟨name, f, hname, hf, hfirst⟩ := u.layerFragments_ok hfs
  obtain rfl := Except.ok.inj hname
  obtain ⟨hapi, -⟩ := u.context_first project
  obtain ⟨hfiles, hmodels⟩ := u.layerPaths_written scope project hlayers hfs
  have hlayer : fs.map (fun g => Source.ofFragment g.first) =
      [.ofFragment f, .ofFragment (u.context project).first.repositoryImpl,
        .ofFragment (u.context project).first.repository] := by
    have hmap := congrArg (List.map Source.ofFragment) hfirst
    rwa [List.map_map] at hmap
  rw [sources, u.fragments_eq scope project hlayers hfs, List.map_append, hlayer]
  simp only [List.forall_mem_cons, List.forall_mem_append]
  refine ⟨fits_useCase hapi hfiles hmodels, ?_, fits_dataSource hapi hfiles hmodels hf,
    fits_repositoryImpl hapi hfiles hmodels, fits_repository hapi hfiles hmodels, by simp⟩
  intro source hsource
  cases hmodel : u.api.returnsModel with
  | false => simp [mapperFragments, hmodel] at hsource
  | true =>
      rw [mapperFragments, if_pos hmodel, List.map_singleton, List.mem_singleton] at hsource
      have hpaths := hmodels hmodel
      simp only [List.forall_mem_cons] at hpaths
      subst hsource
      exact fits_mapper hapi (List.forall_mem_cons.mpr
        ⟨hpaths.1, List.forall_mem_singleton.mpr hpaths.2.1⟩)

theorem closed (hname : Validation.isApiName u.api.name = true)
    (hlayers : u.site.wantsLayers u.plan = true)
    (hfs : u.layerFragments (.ok project) = .ok fs) : u.Closed scope project := by
  refine ⟨fun source hsource => ?_, fun source hsource ref href => ?_,
    fun source hsource model hmodel => ?_⟩
  · rcases List.mem_cons.mp hsource with rfl | hsource
    · exact u.useCase_mem_written scope project hlayers hfs
    · obtain ⟨f, hf, rfl⟩ := List.mem_map.mp hsource
      exact u.fragment_mem_written scope project hf
  · obtain ⟨paths, hfits⟩ := fits_of_mem_sources hlayers hfs source hsource
    obtain ⟨path, hpath, hresolve⟩ := hfits.leadTo.exists_path href
    exact ⟨path, hresolve, hfits.written path hpath⟩
  · obtain ⟨paths, hfits⟩ := fits_of_mem_sources hlayers hfs source hsource
    obtain ⟨hpath, hmentioned⟩ := hfits.models model hmodel
    have himported := u.modelsOf_subset source.kind hmodel
    exact ⟨hmentioned, u.rootClass?_of_mem hname himported,
      u.mem_actions_of_mem_models scope project (u.saveModel_mem_models scope himported),
      hfits.leadTo.exists_reference hpath⟩

end Closed

/-- From `w` to `w'` the unit did all that its script says. -/
structure Wrote (w w' : Workspace) : Prop where
  run : Action.performAll u.plan.mode w.bench (u.actions w.memory.scope (.ok project)) =
    (.ok (), w'.bench)
  files : w'.trail.files.map Saved.path =
    w.trail.files.map Saved.path ++ (u.written w.memory.scope project).map Location.toString

end Draft

namespace ApiUnit

/-- The files of an accepted API whose layers are wanted fit together, whatever its samples show and
whatever the project is called, as soon as the layers can be rendered; and a unit that succeeds has
rendered them and has written all of these files. -/
theorem closed_task {plan : Plan} {site : Site} {name : String} {raw : Json} {api : Api}
    (hapi : apiOf site name raw = .ok api) (hlayers : site.wantsLayers plan = true) :
    (∀ samples scope project fs,
      Draft.layerFragments { plan, site, api, samples } (.ok project) = .ok fs →
        Draft.Closed { plan, site, api, samples } scope project) ∧
    ∀ w w', Task.exec (task plan site name raw) w = (.ok (), w') →
      ∃ samples project fs,
        Draft.layerFragments { plan, site, api, samples } (.ok project) = .ok fs ∧
          Draft.Wrote { plan, site, api, samples } project w w' := by
  refine ⟨fun samples scope project fs hfs => ?_, fun w w' hexec => ?_⟩
  · exact Draft.closed (name_of_apiOf hapi).2 hlayers hfs
  · obtain ⟨samples, project, hrun⟩ := performAll_of_exec_task hapi hexec
    have hplan : site.wantsLayers plan = true := hlayers
    obtain ⟨known, fs, rfl, hfs⟩ :=
      @Draft.layerFragments_of_performAll { plan, site, api, samples } _ _ _ _ hplan hrun
    exact ⟨samples, known, fs, hfs, hrun, Action.files_performAll hrun⟩

/-- A page with an API that takes one parameter and answers with a list of users. -/
def usersSite : Site :=
  { feature := { name := "auth", directory := "/work/auth" }, page := { name := "login" }
    settings := {} }

def usersEntry : Json :=
  .obj [("method", .str "get"), ("path", .str "/users/:id"), ("body", .str "body.json"),
    ("response", .str "users.json")]

def usersApi : Api :=
  { name := "getUsers", method := .get, path := "/users/:id", body := some "body.json"
    response := some "users.json" }

def usersSamples : Twin Samples :=
  .same
    { body := [("id", .int 1)], bodyList := false, headers := none
      response := [("id", .int 1), ("profile", .obj [("name", .str "a")])], responseList := true }

theorem closed_task_users :
    apiOf usersSite "getUsers" usersEntry = .ok usersApi ∧ usersApi.returnsModel = true ∧
      usersSite.wantsLayers {} = true ∧
      Draft.Closed { plan := {}, site := usersSite, api := usersApi, samples := usersSamples } {}
        "shop" := by
  have hapi : apiOf usersSite "getUsers" usersEntry = .ok usersApi := rfl
  have hlayers : usersSite.wantsLayers {} = true := rfl
  exact ⟨hapi, rfl, hlayers, (closed_task hapi hlayers).1 usersSamples {} "shop" _ rfl⟩

end ApiUnit

end DartScaffold.Run
