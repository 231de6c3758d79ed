import DartScaffold.Proofs.Mapper.Block
import DartScaffold.Proofs.Run.Effect
import DartScaffold.Proofs.Run.Places

/-!
Where a script writes. Each own file of the API is saved once, and each aggregate receives one fragment
at most, which is of this API; nothing else is written.
-/

namespace DartScaffold.Run

open Aggregate (FileKind Fragment)
open ClassName (Scope)
open Disk (Location)

namespace Action

/-- The place of a file that is saved. -/
def saved? : Action → Option Location
  | save place _ => some place
  | _ => none

@[simp] theorem saved_check {α : Type} (result : Except Failure α) :
    (check result).filterMap saved? = [] :=
  List.filterMap_eq_nil_iff.mpr (forall_mem_check fun _ _ => rfl)

end Action

namespace Draft

variable (u : Draft) (scope : Scope)

theorem relativePath_bodyModel :
    (Prod.fst <$> u.bodyModel).first.relativePath =
      "data/models/body/" ++ ApiUnit.fileStem u.api ++ "_body.dart" := by
  have hpath : ApiUnit.bodyPath u.api =
      "data/models/body/" ++ ApiUnit.fileStem u.api ++ "_body.dart" := rfl
  rw [← hpath, Aggregate.first_map, bodyModel]
  cases u.bodyFields <;> rfl

theorem relativePath_responseModel :
    (Prod.fst <$> u.responseModel).first.relativePath =
      "data/models/response/" ++ ApiUnit.fileStem u.api ++ "_response.dart" := by
  have hpath : ApiUnit.responsePath u.api =
      "data/models/response/" ++ ApiUnit.fileStem u.api ++ "_response.dart" := rfl
  rw [← hpath, Aggregate.first_map, responseModel, Aggregate.first_map]
  rfl

theorem relativePath_entityModel :
    (Prod.fst <$> u.entityModel).first.relativePath =
      "domain/entities/" ++ ApiUnit.fileStem u.api ++ "_entity.dart" := by
  have hpath : ApiUnit.entityPath u.api =
      "domain/entities/" ++ ApiUnit.fileStem u.api ++ "_entity.dart" := rfl
  rw [← hpath, Aggregate.first_map, entityModel, Twin.first_bind, Twin.first_bind]
  rfl

theorem relativePath_extraModel :
    (u.extraModel scope).first.relativePath = "" ++ ApiUnit.fileStem u.api ++ "_extra.dart" := by
  have hpath : ApiUnit.extraPath u.api = ApiUnit.fileStem u.api ++ "_extra.dart" := rfl
  rw [String.empty_append, ← hpath, extraModel, Twin.first_bind, Twin.first_bind]
  rfl

theorem useCasePath_context (project : String) :
    (u.context project).first.useCasePath =
      "domain/usecases/" ++ ApiUnit.fileStem u.api ++ "_use_case.dart" := by
  rw [context]
  cases u.samples <;> rfl

theorem saved_bodyActions : u.bodyActions.filterMap Action.saved? =
    ([ApiUnit.fileAt u.api u.site.directory "data/models/body/" "_body.dart"] ++
      if u.site.wantsTests u.plan then
        [ApiUnit.fileAt u.api u.site.testDirectory "data/models/body/" "_body_test.dart"]
      else []).map Prod.snd := by
  have htest : (u.site.testSubject u.api).bodyPath =
      "data/models/body/" ++ ApiUnit.fileStem u.api ++ "_body_test.dart" := rfl
  rw [bodyActions, List.filterMap_append, Action.saved_check, List.nil_append, saveModel,
    relativePath_bodyModel, htest]
  split <;> simp only [List.filterMap_cons, List.filterMap_nil, Action.saved?, ApiUnit.fileAt,
    List.map_cons, List.map_nil, List.cons_append, List.nil_append]

theorem saved_extraActions : (u.extraActions scope).filterMap Action.saved? =
    (ApiUnit.extraFiles u.plan u.api).map Prod.snd := by
  rw [extraActions, ApiUnit.extraFiles, List.filterMap_append, Action.saved_check, List.nil_append,
    List.filterMap_map, List.map_map, ← List.filterMap_eq_map]
  refine congrArg (List.filterMap · _) (funext fun directory => ?_)
  simp only [Function.comp_apply, saveModel, relativePath_extraModel, Action.saved?, ApiUnit.fileAt]

theorem saved_responseActions : (u.responseActions scope).filterMap Action.saved? =
    ([ApiUnit.fileAt u.api u.site.directory "data/models/response/" "_response.dart"] ++
      [ApiUnit.fileAt u.api u.site.directory "domain/entities/" "_entity.dart"] ++
      (if u.site.wantsTests u.plan then
        [ApiUnit.fileAt u.api u.site.testDirectory "data/models/response/" "_response_test.dart"]
      else []) ++ ApiUnit.extraFiles u.plan u.api).map Prod.snd := by
  have htest : (u.site.testSubject u.api).responsePath =
      "data/models/response/" ++ ApiUnit.fileStem u.api ++ "_response_test.dart" := rfl
  rw [responseActions, List.filterMap_append, saved_extraActions, List.filterMap_append,
    List.filterMap_append, Action.saved_check, List.nil_append, saveModel,
    relativePath_responseModel, saveModel, relativePath_entityModel, htest]
  split <;> simp [Action.saved?, ApiUnit.fileAt]

theorem saved_layerActions {project : Except Failure String} {fs : List (Twin Fragment)}
    (h : u.layerFragments project = .ok fs) : (u.layerActions project).filterMap Action.saved? =
      [ApiUnit.fileAt u.api u.site.directory "domain/usecases/" "_use_case.dart"].map Prod.snd := by
  cases project with
  | error failure => exact absurd h (by simp [layerFragments, Except.bind])
  | ok project =>
      rw [layerActions, h]
      simp only [useCasePath_context, List.filterMap_cons, List.filterMap_nil, Action.saved?,
        ApiUnit.fileAt, List.map_cons, List.map_nil]

theorem saved_patches (fs : List (Twin Fragment)) : (u.patches fs).filterMap Action.saved? = [] := by
  rw [List.filterMap_eq_nil_iff]
  intro a ha
  obtain ⟨f, -, rfl⟩ := List.mem_map.mp ha
  rfl

theorem saved_models : (u.models scope).filterMap Action.saved? =
    (ApiUnit.modelFiles u.plan u.site u.api).map Prod.snd := by
  rw [models, List.filterMap_append, saved_bodyActions, ApiUnit.modelFiles]
  cases u.api.returnsModel <;> simp [saved_responseActions]

theorem saved_actions_eq (project : Except Failure String) :
    (u.actions scope project).filterMap Action.saved? =
      (ApiUnit.modelFiles u.plan u.site u.api).map Prod.snd ++
        (if u.site.wantsLayers u.plan then u.layerActions project else []).filterMap
          Action.saved? := by
  rw [actions, List.filterMap_append, List.filterMap_append, saved_patches, saved_models,
    List.append_nil]

/-- The own files of the API are what its script saves, one after the other. -/
theorem saved_actions {project : Except Failure String}
    (h : u.site.wantsLayers u.plan = true → ∃ fs, u.layerFragments project = .ok fs) :
    (u.actions scope project).filterMap Action.saved? =
      ApiUnit.ownPlaces u.plan u.site u.api := by
  rw [saved_actions_eq, ApiUnit.ownPlaces, ApiUnit.ownFiles, List.map_append]
  congr 1
  cases hwants : u.site.wantsLayers u.plan with
  | false => rfl
  | true =>
      obtain ⟨fs, hfs⟩ := h hwants
      exact u.saved_layerActions hfs

/-- Whatever becomes of the layers, nothing else is saved. -/
theorem saved_actions_subset (project : Except Failure String) :
    (u.actions scope project).filterMap Action.saved? ⊆ ApiUnit.ownPlaces u.plan u.site u.api := by
  by_cases h : u.site.wantsLayers u.plan = true → ∃ fs, u.layerFragments project = .ok fs
  · rw [saved_actions u scope h]
    exact List.Subset.refl _
  · obtain ⟨hwants, hnone⟩ := Classical.not_imp.mp h
    have hlayers : (u.layerActions project).filterMap Action.saved? = [] := by
      cases project with
      | error failure => rfl
      | ok project =>
          rw [layerActions]
          split
          · rfl
          · rename_i fs hfs
            exact absurd ⟨fs, hfs⟩ hnone
    rw [saved_actions_eq, if_pos hwants, hlayers, List.append_nil, ApiUnit.ownPlaces,
      ApiUnit.ownFiles, List.map_append]
    exact List.subset_append_left _ _

/-! ### Fragments -/

end Draft

/-- What the skeletons of the page's files are made of. -/
def Site.blank (site : Site) : Layer.Context :=
  { api := { name := "", method := .get, path := "" }, page := site.page.name, project := "" }

/-- The text that an aggregate file begins as. -/
def Site.skeleton (site : Site) : FileKind → String
  | .remoteDataSource => site.blank.dataSourceSkeleton
  | .repositoryImpl => site.blank.repositoryImplSkeleton
  | .domainRepository => site.blank.repositorySkeleton
  | .mapper => Mapper.skeleton

namespace Draft

variable (u : Draft) (scope : Scope)

/-- The fragment goes into the aggregate file of its kind. -/
structure Contributes (f : Fragment) : Prop where
  api : f.api = u.api.name
  path : f.relativePath = u.site.aggregatePath f.kind
  skeleton : f.skeleton = u.site.skeleton f.kind

theorem mapper_first : (u.mapper scope).first =
    Mapper.emit { api := u.api.name } scope u.shape.first := by
  have hregistry : u.entityModel.first.2 =
      ClassName.Registry.ensureNodes { api := u.api.name } u.shape.first.nodes := by
    rw [entityModel, Twin.first_bind, Twin.first_bind, responseModel, Aggregate.first_map]
    exact ClassName.Registry.ensureNodes_ensureNodes _ _
  rw [mapper, Twin.first_bind, Twin.first_bind]
  change Mapper.emit u.entityModel.first.2 scope u.shape.first = _
  rw [hregistry, Mapper.emit, Mapper.emit, ClassName.Registry.ensureNodes_ensureNodes]

theorem shape_first : u.shape.first = .object u.responseFields.first :=
  Aggregate.first_map _ _

theorem contributes_mapper : u.Contributes (u.mapper scope).first.1 := by
  rw [mapper_first]
  exact ⟨(ClassName.Registry.extends_ensureNodes _ _).api, rfl, rfl⟩

theorem fragments_ok {c : Layer.Context} {items : List Fragment} (h : c.fragments = .ok items) :
    ∃ source, c.dataSource = .ok source ∧ items = [source, c.repositoryImpl, c.repository] := by
  rw [Layer.Context.fragments] at h
  cases hsource : c.dataSource with
  | error failure =>
      rw [hsource] at h
      contradiction
  | ok source =>
      rw [hsource] at h
      exact ⟨source, rfl, (Except.ok.inj h).symm⟩

theorem traverse_fragments_ok {t : Twin Layer.Context} {found : Twin (List Fragment)}
    (h : t.traverse Layer.Context.fragments = .ok found) :
    ∃ source, t.first.dataSource = .ok source ∧
      found.elements.map Twin.first =
        [source, t.first.repositoryImpl, t.first.repository] := by
  cases t with
  | same c =>
      rw [Twin.traverse] at h
      cases hitems : c.fragments with
      | error failure =>
          rw [hitems] at h
          contradiction
      | ok items =>
          rw [hitems] at h
          obtain rfl := Except.ok.inj h
          obtain ⟨source, hsource, rfl⟩ := fragments_ok hitems
          exact ⟨source, hsource, rfl⟩
  | apart c c' =>
      rw [Twin.traverse] at h
      cases hitems : c.fragments with
      | error failure =>
          rw [hitems] at h
          contradiction
      | ok items =>
          cases hitems' : c'.fragments with
          | error failure =>
              rw [hitems, hitems'] at h
              contradiction
          | ok items' =>
              rw [hitems, hitems'] at h
              obtain rfl := Except.ok.inj h
              obtain ⟨source, hsource, rfl⟩ := fragments_ok hitems
              obtain ⟨source', -, rfl⟩ := fragments_ok hitems'
              exact ⟨source, hsource, rfl⟩

theorem layerFragments_ok {project : Except Failure String} {fs : List (Twin Fragment)}
    (h : u.layerFragments project = .ok fs) :
    ∃ name source, project = .ok name ∧ (u.context name).first.dataSource = .ok source ∧
      fs.map Twin.first =
        [source, (u.context name).first.repositoryImpl, (u.context name).first.repository] := by
  cases project with
  | error failure => exact absurd h (by simp [layerFragments, Except.bind])
  | ok name =>
      rw [layerFragments, Except.bind] at h
      cases hfound : (u.context name).traverse Layer.Context.fragments with
      | error failure =>
          rw [hfound] at h
          contradiction
      | ok found =>
          rw [hfound] at h
          obtain rfl := Except.ok.inj h
          obtain ⟨source, hsource, hfirst⟩ := traverse_fragments_ok hfound
          exact ⟨name, source, rfl, hsource, hfirst⟩

theorem dataSource_ok {c : Layer.Context} {source : Fragment} (h : c.dataSource = .ok source) :
    source.kind = .remoteDataSource ∧ source.api = c.api.name ∧
      source.relativePath = s!"data/datasources/{c.pageFile}_remote_data_source.dart" ∧
      source.skeleton = c.dataSourceSkeleton ∧ source.imports = c.dataSourceImports ∧
      (Layer.interfaceSection, Text.joinLines
        (c.signature s!"{c.futureClass}<{c.responseClass}>" c.apiMethod ";")) ∈ source.blocks := by
  rw [Layer.Context.dataSource] at h
  cases hbody : c.dataSourceBody with
  | error failure =>
      rw [hbody] at h
      contradiction
  | ok body =>
      rw [hbody] at h
      obtain rfl := Except.ok.inj h
      exact ⟨rfl, rfl, rfl, rfl, rfl, List.mem_cons_self⟩

theorem context_first (project : String) :
    (u.context project).first.api = u.api ∧
      (u.context project).first.page = u.site.page.name := by
  rw [context]
  cases u.samples <;> exact ⟨rfl, rfl⟩

/-- Each layer contributes to its own file. -/
theorem contributes_layers {project : Except Failure String} {fs : List (Twin Fragment)}
    (h : u.layerFragments project = .ok fs) :
    (∀ f ∈ fs, u.Contributes f.first) ∧ fs.map (fun f => f.first.kind) =
      [.remoteDataSource, .repositoryImpl, .domainRepository] := by
  obtain ⟨name, source, -, hsource, hfirst⟩ := u.layerFragments_ok h
  obtain ⟨hkind, hapi, hpath, hskeleton, -⟩ := dataSource_ok hsource
  obtain ⟨hapi', hpage⟩ := u.context_first name
  generalize (u.context name).first = c at hapi hpath hskeleton hapi' hpage hfirst
  have hfile : c.pageFile = Text.snakeCase u.site.page.name := by rw [← hpage]; rfl
  -- the skeletons depend on the name of the page alone
  have hsame : c.dataSourceSkeleton = u.site.skeleton .remoteDataSource ∧
      c.repositoryImplSkeleton = u.site.skeleton .repositoryImpl ∧
      c.repositorySkeleton = u.site.skeleton .domainRepository := by
    cases c
    obtain rfl := hpage
    exact ⟨rfl, rfl, rfl⟩
  have hall : ∀ f ∈ fs.map Twin.first, u.Contributes f := by
    have himpl : u.Contributes c.repositoryImpl := by
      refine ⟨congrArg Api.name hapi', ?_, hsame.2.1⟩
      rw [Layer.Context.repositoryImpl, hfile]
      rfl
    have hrepository : u.Contributes c.repository := by
      refine ⟨congrArg Api.name hapi', ?_, hsame.2.2⟩
      rw [Layer.Context.repository, hfile]
      rfl
    have hsource' : u.Contributes source := by
      refine ⟨by rw [hapi, hapi'], ?_, ?_⟩
      · rw [hpath, hkind, hfile]
        rfl
      · rw [hskeleton, hkind, hsame.1]
    rw [hfirst]
    exact List.forall_mem_cons.mpr ⟨hsource', List.forall_mem_cons.mpr ⟨himpl,
      List.forall_mem_singleton.mpr hrepository⟩⟩
  refine ⟨fun f hf => hall f.first (List.mem_map_of_mem hf), ?_⟩
  have hkinds := congrArg (List.map Fragment.kind) hfirst
  rw [List.map_map] at hkinds
  rw [← hkind]
  exact hkinds

/-- A script that runs to its end has rendered its layers. -/
theorem layerFragments_of_performAll {project : Except Failure String} {b b' : Bench}
    (hlayers : u.site.wantsLayers u.plan = true)
    (h : Action.performAll u.plan.mode b (u.actions scope project) = (.ok (), b')) :
    ∃ name fs, project = .ok name ∧ u.layerFragments (.ok name) = .ok fs := by
  have hfail : ∀ (b₁ b₂ : Bench) (failure : Failure),
      Action.performAll u.plan.mode b₁ [.fail failure] ≠ (.ok (), b₂) :=
    fun _ _ _ hrun => absurd (congrArg Prod.fst hrun) (by simp [Action.performAll, Action.perform])
  rw [actions, if_pos hlayers] at h
  obtain ⟨b₁, hfront, -⟩ := Action.performAll_append_eq_ok h
  obtain ⟨b₂, -, hrun⟩ := Action.performAll_append_eq_ok hfront
  cases project with
  | error failure => exact absurd hrun (hfail _ _ _)
  | ok name =>
      obtain ⟨b₃, -, hrest⟩ := Action.performAll_cons_eq_ok hrun
      cases hfs : u.layerFragments (.ok name) with
      | error failure =>
          rw [hfs] at hrest
          exact absurd hrest (hfail _ _ _)
      | ok fs => exact ⟨name, fs, rfl, hfs⟩

end Draft

end DartScaffold.Run
