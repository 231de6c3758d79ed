import DartScaffold.Proofs.Layer.WellFormed
import DartScaffold.Proofs.Mapper.WellFormed
import DartScaffold.Proofs.Run.Targets

/-!
What one unit leaves, as a function of its draft. Its own files and the blocks of the layers do not depend
on the mapper names that are claimed before it; the mapper's block does, and on nothing else that the
other APIs of the page do. The unit leaves alone what the other APIs have: their own files, and their
blocks in the files that all of them share.
-/

namespace DartScaffold.Run

open Aggregate (BlockKey FileKind Fragment View)
open ClassName (Registry Scope)
open Disk (Entry Frame Location WriteMode)

namespace Action

/-- The place of a file that is saved, with its content. -/
def saving? : Action → Option (Location × Twin String)
  | save place content => some (place, content)
  | _ => none

theorem saved?_eq (a : Action) : a.saved? = a.saving?.map Prod.fst := by
  cases a <;> rfl

end Action

namespace Draft

variable (u : Draft) (scope scope' : Scope) (project : Except Failure String)

/-! ### What is saved -/

/-- The mapper leaves the classes to the API itself. -/
theorem registry_eq : u.registry scope = u.registry scope' := by
  rw [registry, registry, mapper, mapper]
  cases u.entityModel <;> cases u.shape <;> rfl

def savings : List (Location × Twin String) :=
  (u.actions {} project).filterMap Action.saving?

/-- No file depends on the mapper names of the page, but for the mapper itself. -/
theorem savings_actions : (u.actions scope project).filterMap Action.saving? = u.savings project := by
  have hpatches : ∀ fs, (u.patches fs).filterMap Action.saving? = [] := by
    intro fs
    rw [List.filterMap_eq_nil_iff]
    intro a ha
    obtain ⟨f, -, rfl⟩ := List.mem_map.mp ha
    rfl
  have htest : u.responseTest scope = u.responseTest {} := by
    rw [responseTest, responseTest, registry_eq u scope {}]
  have hextra : u.extraActions scope = u.extraActions {} := by
    simp only [extraActions, extraModel, registry_eq u scope {}]
  have hresponse : (u.responseActions scope).filterMap Action.saving? =
      (u.responseActions {}).filterMap Action.saving? := by
    simp only [responseActions, List.filterMap_append, htest, hextra]
    rfl
  rw [savings, actions, actions]
  simp only [List.filterMap_append, hpatches, models]
  cases u.api.returnsModel <;> simp [hresponse]

theorem map_fst_savings : (u.savings project).map Prod.fst =
    (u.actions scope project).filterMap Action.saved? := by
  rw [← savings_actions u scope, List.map_filterMap]
  exact List.filterMap_congr fun a _ => (a.saved?_eq).symm

/-! ### What is merged -/

theorem mem_fragments {f : Twin Fragment} (h : f ∈ u.fragments scope project) :
    f ∈ u.mapperFragments scope ∨ ∃ fs, u.layerFragments project = .ok fs ∧ f ∈ fs := by
  rw [fragments] at h
  refine (List.mem_append.mp h).imp_right fun hlayer => ?_
  split at hlayer
  · cases hfs : u.layerFragments project with
    | error failure =>
        rw [hfs] at hlayer
        contradiction
    | ok fs =>
        rw [hfs] at hlayer
        exact ⟨fs, rfl, hlayer⟩
  · contradiction

theorem mem_mapperFragments {f : Twin Fragment} (h : f ∈ u.mapperFragments scope) :
    u.api.returnsModel = true ∧ f.first = (u.mapper scope).first.1 := by
  rw [mapperFragments] at h
  split at h
  · rename_i hmodel
    rw [List.mem_singleton.mp h, Aggregate.first_map]
    exact ⟨hmodel, rfl⟩
  · contradiction

theorem contributes_fragments : ∀ f ∈ u.fragments scope project, u.Contributes f.first := by
  intro f hf
  rcases u.mem_fragments scope project hf with hmapper | ⟨fs, hfs, hlayer⟩
  · rw [(u.mem_mapperFragments scope hmapper).2]
    exact u.contributes_mapper scope
  · exact (u.contributes_layers hfs).1 f hlayer

/-- Each fragment goes into a file of its own. -/
theorem nodup_kinds : ((u.fragments scope project).map fun f => f.first.kind).Nodup := by
  have hmapper : ((u.mapperFragments scope).map fun f => f.first.kind).Sublist [.mapper] := by
    rw [mapperFragments]
    split
    · rw [List.map_singleton, Aggregate.first_map, mapper_first]
      exact List.Sublist.refl _
    · exact List.nil_sublist _
  have hlayers : ((if u.site.wantsLayers u.plan then (u.layerFragments project).toOption.getD []
      else []).map fun f : Twin Fragment => f.first.kind).Sublist
      [.remoteDataSource, .repositoryImpl, .domainRepository] := by
    split
    · cases hfs : u.layerFragments project with
      | error failure => exact List.nil_sublist _
      | ok fs => exact (u.contributes_layers hfs).2 ▸ List.Sublist.refl _
    · exact List.nil_sublist _
  rw [fragments, List.map_append]
  exact List.Nodup.sublist (hmapper.append hlayers) (by decide)

/-- The mapper's fragment, by the names that are claimed. -/
theorem mapper_block : (u.mapper scope).first.1.kind = .mapper ∧
    (u.mapper scope).first.1.blocks = [(Mapper.sectionName, Mapper.blockText u.api.name
      u.responseFields.first (Mapper.claimsOf u.api.name u.responseFields.first scope))] := by
  rw [mapper_first, shape_first]
  exact ⟨rfl, Mapper.blocks_emit scope⟩

theorem kind_ne_mapper {fs : List (Twin Fragment)} (hfs : u.layerFragments project = .ok fs)
    {f : Twin Fragment} (hf : f ∈ fs) : f.first.kind ≠ .mapper := by
  have hmem : f.first.kind ∈ fs.map fun f => f.first.kind :=
    List.mem_map_of_mem (f := fun f : Twin Fragment => f.first.kind) hf
  rw [(u.contributes_layers hfs).2] at hmem
  intro heq
  rw [heq] at hmem
  exact absurd hmem (by decide)

/-- The fragments of the layers do not depend on the mapper names of the page. -/
theorem mem_fragments_of_kind_ne {f : Twin Fragment} (hf : f ∈ u.fragments scope project)
    (hkind : f.first.kind ≠ .mapper) : f ∈ u.fragments scope' project := by
  rw [fragments] at hf ⊢
  refine List.mem_append_right _ ((List.mem_append.mp hf).resolve_left fun hmapper => hkind ?_)
  rw [(u.mem_mapperFragments scope hmapper).2]
  exact (u.mapper_block scope).1

/-- Markers can carry the name of the API, and no static header has a line break. -/
structure Plain : Prop where
  name : Aggregate.IsApiId u.api.name
  headers : ∀ headers ∈ u.samples.first.headers, ∀ s ∈ Json.stringsOfEntries headers,
    Dart.IsOneLine s

variable {u scope project}

theorem Plain.unbroken (h : u.Plain) (name : String) : (u.context name).first.Unbroken := by
  have hheaders := h.headers
  rw [context]
  revert hheaders
  cases u.samples <;> exact id

theorem wellFormed_fragments (h : u.Plain) (hscope : scope.Safe) :
    ∀ f ∈ u.fragments scope project, f.first.WellFormed := by
  intro f hf
  rcases u.mem_fragments scope project hf with hmapper | ⟨fs, hfs, hlayer⟩
  · rw [(u.mem_mapperFragments scope hmapper).2, mapper_first, shape_first]
    exact Mapper.wellFormed_emit h.name hscope
  · obtain ⟨name, source, rfl, hsource, hfirst⟩ := u.layerFragments_ok hfs
    have hunbroken := h.unbroken name
    have hname : Aggregate.IsApiId (u.context name).first.api.name :=
      (u.context_first name).1 ▸ h.name
    generalize (u.context name).first = c at hsource hfirst hunbroken hname
    have hall : ∀ f ∈ fs.map Twin.first, f.WellFormed := by
      rw [hfirst]
      exact List.forall_mem_cons.mpr ⟨c.wellFormed_dataSource hname hunbroken hsource,
        List.forall_mem_cons.mpr ⟨c.wellFormed_repositoryImpl hname,
          List.forall_mem_singleton.mpr (c.wellFormed_repository hname)⟩⟩
    exact hall _ (List.mem_map_of_mem hlayer)

/-! ### Where it is written -/

/-- What a unit can do before its fragments are merged. -/
inductive Own (u : Draft) (scope : Scope) (project : Except Failure String) : Action → Prop where
  | save (place : Location) (content : Twin String) : Own u scope project (.save place content)
  | claim : Own u scope project
      (.claim (Mapper.claimsOf u.api.name u.responseFields.first scope))
  | call {name : String} (h : project = .ok name) : Own u scope project (.call name)
  | fail (failure : Failure) : Own u scope project (.fail failure)

theorem own_models : ∀ a ∈ u.models scope, u.Own scope project a := by
  refine ApiUnit.forall_mem_models u (.fail _) (.fail _) .save ?_
  rw [mapper_first, shape_first]
  exact .claim

theorem own_layerActions : ∀ a ∈ u.layerActions project, u.Own scope project a := by
  cases project with
  | error failure => exact List.forall_mem_singleton.mpr (.fail failure)
  | ok name =>
      refine List.forall_mem_cons.mpr ⟨.call rfl, ?_⟩
      split
      · exact List.forall_mem_singleton.mpr (.fail _)
      · exact List.forall_mem_singleton.mpr (.save _ _)

theorem own_of_mem {a : Action} (h : a ∈ u.models scope ++
    if u.site.wantsLayers u.plan then u.layerActions project else []) : u.Own scope project a := by
  rcases List.mem_append.mp h with hmodels | hlayers
  · exact own_models a hmodels
  · split at hlayers
    · exact own_layerActions a hlayers
    · contradiction

/-- What is not merged is the unit's own. -/
theorem own_or_mem_patches {a : Action} (h : a ∈ u.actions scope project) :
    u.Own scope project a ∨ a ∈ u.patches (u.fragments scope project) := by
  rw [actions] at h
  exact (List.mem_append.mp h).imp_left own_of_mem

theorem not_patch_of_own {a : Action} (h : u.Own scope project a) (l : Location) (f : Twin Fragment) :
    a ≠ .patch l f := by
  rintro rfl
  contradiction

theorem mem_patches {l : Location} {f : Twin Fragment} (h : .patch l f ∈ u.actions scope project) :
    .patch l f ∈ u.patches (u.fragments scope project) :=
  (own_or_mem_patches h).resolve_left fun hown => not_patch_of_own hown l f rfl

theorem not_mem_patches {a : Action} (h : a.place? = none) (fs : List (Twin Fragment)) :
    a ∉ u.patches fs := by
  intro ha
  obtain ⟨f, -, rfl⟩ := List.mem_map.mp ha
  contradiction

/-- The names that the mapper claims are the only ones. -/
theorem claim_actions {next : Scope} (h : .claim next ∈ u.actions scope project) :
    next = Mapper.claimsOf u.api.name u.responseFields.first scope := by
  cases (own_or_mem_patches h).resolve_right (not_mem_patches rfl _)
  rfl

/-- The project is called what it is called. -/
theorem call_actions {name : String} (h : .call name ∈ u.actions scope project) :
    project = .ok name := by
  cases (own_or_mem_patches h).resolve_right (not_mem_patches rfl _)
  assumption

/-- A unit writes its own files and its fragments, which go into the files of their kinds. -/
theorem place_actions {a : Action} (ha : a ∈ u.actions scope project) {l : Location}
    (hl : a.place? = some l) :
    l ∈ ApiUnit.ownPlaces u.plan u.site u.api ∨ ∃ f ∈ u.fragments scope project,
      a = .patch l f ∧ l = u.site.aggregate f.first.kind := by
  cases a with
  | save place content =>
      obtain rfl : place = l := Option.some.inj hl
      exact .inl (saved_actions_subset u scope project (List.mem_filterMap.mpr ⟨_, ha, rfl⟩))
  | patch place fragment =>
      obtain rfl : place = l := Option.some.inj hl
      obtain ⟨f, hf, heq⟩ := List.mem_map.mp (mem_patches ha)
      obtain ⟨hplace, rfl⟩ : u.site.directory.child f.first.relativePath = place ∧ f = fragment := by
        simpa using heq
      refine .inr ⟨f, hf, rfl, ?_⟩
      rw [← hplace, (u.contributes_fragments scope project f hf).path]
      rfl
  | _ => contradiction

theorem within_actions : ∀ a ∈ u.actions scope project,
    a.Within (kinds.map u.site.aggregate ++ ApiUnit.ownPlaces u.plan u.site u.api) := by
  intro a ha l hl
  rcases place_actions ha hl with hown | ⟨f, -, -, rfl⟩
  · exact List.mem_append_right _ hown
  · exact List.mem_append_left _ (List.mem_map_of_mem (mem_kinds _))

variable (d : Disk)

/-- The own files of another API are left alone. -/
theorem elsewhere_of_stem_ne {l : Location} {stem ending : String} (hl : Ends l stem ending)
    (hmem : ending ∈ ownEndings) (hstem : stem ≠ ApiUnit.fileStem u.api) :
    ∀ a ∈ u.actions scope project, a.Elsewhere d l := by
  intro a ha place hplace
  rcases place_actions ha hplace with hown | ⟨f, -, -, rfl⟩
  · obtain ⟨file, hfile, rfl⟩ := List.mem_map.mp hown
    exact hl.disjoint (ApiUnit.ends_ownFiles u.plan u.site u.api file hfile).2
      (fun heq => absurd heq hstem) d
  · obtain ⟨stem', hends⟩ := u.site.ends_aggregate f.first.kind
    refine hl.disjoint hends (fun _ heq => ?_) d
    exact sharedEnding_not_mem_ownEndings _ (mem_kinds f.first.kind) (heq ▸ hmem)

/-- A fragment leaves alone the files of the other kinds. -/
theorem elsewhere_patch {f : Twin Fragment} (hf : f ∈ u.fragments scope project) {kind : FileKind}
    (hkind : f.first.kind ≠ kind) :
    (Action.patch (u.site.directory.child f.first.relativePath) f).Elsewhere d
      (u.site.aggregate kind) := by
  rintro place hplace
  obtain rfl : u.site.directory.child f.first.relativePath = place := Option.some.inj hplace
  rw [(u.contributes_fragments scope project f hf).path]
  exact u.site.disjoint_aggregates hkind.symm d

theorem elsewhere_of_not_patch {a : Action} (ha : a ∈ u.actions scope project) (kind : FileKind)
    (hpatch : ∀ l f, a ≠ .patch l f) : a.Elsewhere d (u.site.aggregate kind) := by
  intro place hplace
  rcases place_actions ha hplace with hown | ⟨f, -, heq, -⟩
  · obtain ⟨file, hfile, rfl⟩ := List.mem_map.mp hown
    exact (u.site.disjoint_own_aggregate u.plan u.api hfile kind d).2
  · exact absurd heq (hpatch _ _)

/-- What a key sees is left alone unless a fragment of the file's kind has its block. -/
theorem passes_actions (h : u.Plain) (hscope : scope.Safe) {kind : FileKind} {key : BlockKey}
    (hkey : ∀ f ∈ u.fragments scope project, f.first.kind = kind →
      ∀ block ∈ f.first.blocks, key ≠ ⟨block.1, u.api.name⟩) :
    ∀ a ∈ u.actions scope project,
      a.Passes d (u.site.aggregate kind) (u.site.skeleton kind) key := by
  intro a ha
  by_cases hpatch : ∃ l f, a = .patch l f
  · obtain ⟨l, f, rfl⟩ := hpatch
    obtain ⟨f, hf, heq⟩ := List.mem_map.mp (mem_patches ha)
    rw [← heq]
    by_cases hkind : f.first.kind = kind
    · have hcontributes := u.contributes_fragments scope project f hf
      rw [hcontributes.path, hkind]
      refine .merge (wellFormed_fragments h hscope f hf) (hkind ▸ hcontributes.skeleton) ?_
      rw [hcontributes.api]
      exact hkey f hf hkind
    · exact .elsewhere (elsewhere_patch d hf hkind)
  · exact .elsewhere (elsewhere_of_not_patch d ha kind fun l f heq => hpatch ⟨l, f, heq⟩)

/-! ### What is left in the end -/

section Left

variable {d} {places : List Location} {b b' : Bench} (hapart : d.Apart places)
  (hwithin : ∀ a ∈ u.actions scope project, a.Within places) (hframe : Frame places d b.disk)
  (hrun : Action.performAll u.plan.mode b (u.actions scope project) = (.ok (), b'))

/-- The other own files of the unit are left alone by what saves one of them. -/
theorem elsewhere_of_ending_ne {file : String × Location}
    (hfile : file ∈ ApiUnit.ownFiles u.plan u.site u.api) {as : List Action}
    (has : as ⊆ u.actions scope project)
    (hsaved : ∀ l ∈ as.filterMap Action.saved?,
      ∃ other ∈ ApiUnit.ownFiles u.plan u.site u.api, other.2 = l ∧ file.1 ≠ other.1) :
    ∀ a ∈ as, a.Elsewhere d file.2 := by
  intro a ha place hplace
  cases a with
  | save l content =>
      obtain rfl : l = place := Option.some.inj hplace
      obtain ⟨other, hother, rfl, hne⟩ := hsaved l (List.mem_filterMap.mpr ⟨_, ha, rfl⟩)
      exact ApiUnit.disjoint_ownFiles u.plan u.site u.api hfile hother (fun _ => hne) d
  | patch l f =>
      obtain rfl : l = place := Option.some.inj hplace
      obtain ⟨f, hf, heq⟩ := List.mem_map.mp (mem_patches (has ha))
      have hplace : u.site.directory.child f.first.relativePath = l := (Action.patch.inj heq).1
      rw [← hplace, (u.contributes_fragments scope project f hf).path]
      exact (u.site.disjoint_own_aggregate u.plan u.api hfile f.first.kind d).1
  | _ => contradiction

include hapart hwithin hframe hrun

/-- An own file is as the unit saves it. -/
theorem held_savings {l : Location} {content : Twin String} {entry : Option Entry}
    (hsaving : (l, content) ∈ u.savings project) (hl : l ∈ places)
    (h : Action.Held d l entry b.disk) :
    Action.Held d l (Disk.rewritten content.first entry) b'.disk := by
  rw [← savings_actions u scope] at hsaving
  obtain ⟨a, ha, hsaving⟩ := List.mem_filterMap.mp hsaving
  obtain rfl : a = .save l content := by
    cases a with
    | save place found =>
        obtain ⟨rfl, rfl⟩ := Prod.mk.inj (Option.some.inj hsaving)
        rfl
    | _ => contradiction
  obtain ⟨pre, post, hsplit⟩ := List.append_of_mem ha
  have hlayers : u.site.wantsLayers u.plan = true → ∃ fs, u.layerFragments project = .ok fs := by
    intro hwants
    obtain ⟨name, fs, hname, hfs⟩ := layerFragments_of_performAll u scope hwants hrun
    exact ⟨fs, hname ▸ hfs⟩
  have hsaved := saved_actions u scope hlayers
  have hcons : (Action.save l content :: post).filterMap Action.saved? =
      l :: post.filterMap Action.saved? := rfl
  rw [hsplit, List.filterMap_append, hcons, ApiUnit.ownPlaces, eq_comm, List.map_eq_append_iff] at hsaved
  obtain ⟨before, rest, hfiles, hbefore, hrest⟩ := hsaved
  obtain ⟨file, after, rfl, rfl, hafter⟩ := List.map_eq_cons_iff.mp hrest
  -- no two own files have names that end alike
  have hnodup := ApiUnit.nodup_endings_ownFiles u.plan u.site u.api
  rw [hfiles, List.map_append, List.map_cons, List.nodup_middle, List.nodup_cons, ← List.map_append]
    at hnodup
  have hfile : file ∈ ApiUnit.ownFiles u.plan u.site u.api := by simp [hfiles]
  have hothers : ∀ other ∈ before ++ after, other ∈ ApiUnit.ownFiles u.plan u.site u.api ∧
      file.1 ≠ other.1 := by
    refine fun other hother => ⟨?_, fun heq => hnodup.1 (List.mem_map.mpr ⟨other, hother, heq.symm⟩)⟩
    rw [hfiles]
    exact List.mem_append.mpr ((List.mem_append.mp hother).imp_right (List.mem_cons_of_mem _))
  have hall : ∀ as, as ⊆ pre ++ post → (∀ l ∈ as.filterMap Action.saved?,
      l ∈ (before ++ after).map Prod.snd) → ∀ a ∈ as, a.Elsewhere d file.2 ∧ a.Within places := by
    intro as has hmem a ha
    have hsub : as ⊆ u.actions scope project := by
      rw [hsplit]
      exact fun a ha => List.mem_append.mpr
        ((List.mem_append.mp (has ha)).imp_right (List.mem_cons_of_mem _))
    refine ⟨elsewhere_of_ending_ne hfile hsub (fun l hl => ?_) a ha, hwithin a (hsub ha)⟩
    obtain ⟨other, hother, rfl⟩ := List.mem_map.mp (hmem l hl)
    exact ⟨other, (hothers other hother).1, rfl, (hothers other hother).2⟩
  rw [hsplit] at hrun
  refine Action.held_saved hapart hl hframe
    (hall pre (List.subset_append_left _ _) fun l hl => ?_)
    (hall post (List.subset_append_right _ _) fun l hl => ?_) h hrun
  · rw [← hbefore] at hl
    exact List.map_subset _ (List.subset_append_left _ _) hl
  · rw [← hafter] at hl
    exact List.map_subset _ (List.subset_append_right _ _) hl

/-- A block is as the fragment has it, indented by what was seen before. -/
theorem seen_fragment (hplain : u.Plain) (hscope : scope.Safe) {f : Twin Fragment}
    (hf : f ∈ u.fragments scope project) {block : String × String} (hblock : block ∈ f.first.blocks)
    (hl : u.site.aggregate f.first.kind ∈ places)
    (hvacant : d.entry? (d.absoluteKey (u.site.aggregate f.first.kind)) ≠ some .directory)
    {v : Except Failure View}
    (h : Action.Seen d (u.site.aggregate f.first.kind) (u.site.skeleton f.first.kind)
      ⟨block.1, u.api.name⟩ v b.disk) :
    Action.Seen d (u.site.aggregate f.first.kind) (u.site.skeleton f.first.kind)
      ⟨block.1, u.api.name⟩ (v.map (·.supplied ⟨block.1, u.api.name⟩ block.2)) b'.disk := by
  obtain ⟨hapi, hpath, hskeleton⟩ := u.contributes_fragments scope project f hf
  have hplace : u.site.directory.child f.first.relativePath = u.site.aggregate f.first.kind := by
    rw [hpath]
    rfl
  obtain ⟨before, after, hsplit⟩ := List.append_of_mem hf
  have hactions : u.actions scope project =
      (u.models scope ++ (if u.site.wantsLayers u.plan then u.layerActions project else []) ++
        u.patches before) ++ .patch (u.site.aggregate f.first.kind) f :: u.patches after := by
    rw [actions, hsplit, patches, List.map_append, List.map_cons, hplace]
    simp only [List.append_assoc]
    rfl
  have hnodup := u.nodup_kinds scope project
  rw [hsplit, List.map_append, List.map_cons, List.nodup_middle, List.nodup_cons, ← List.map_append]
    at hnodup
  have hother : ∀ a ∈ u.patches (before ++ after),
      a.Elsewhere d (u.site.aggregate f.first.kind) := by
    intro a ha
    obtain ⟨g, hg, rfl⟩ := List.mem_map.mp ha
    have hmem : g ∈ u.fragments scope project := by
      rw [hsplit]
      exact List.mem_append.mpr ((List.mem_append.mp hg).imp_right (List.mem_cons_of_mem _))
    exact elsewhere_patch d hmem fun heq => hnodup.1 (List.mem_map.mpr ⟨g, hg, heq⟩)
  have hpatches : u.patches (before ++ after) = u.patches before ++ u.patches after :=
    List.map_append
  rw [hpatches] at hother
  obtain ⟨hbefore, hafter⟩ := List.forall_mem_append.mp hother
  rw [hactions] at hwithin hrun
  obtain ⟨hwithin₁, hwithin₂⟩ := List.forall_mem_append.mp hwithin
  rw [← hskeleton, ← hapi] at h ⊢
  refine Action.seen_patched hapart hl hframe (wellFormed_fragments hplain hscope f hf) hblock
    (fun a ha => ⟨?_, hwithin₁ a ha⟩)
    (fun a ha => ⟨.elsewhere (hafter a ha), hwithin₂ a (List.mem_cons_of_mem _ ha)⟩) hvacant h hrun
  rcases List.mem_append.mp ha with hown | hpatch
  · have hmem : a ∈ u.actions scope project := by
      rw [hactions]
      exact List.mem_append_left _ ha
    exact .elsewhere (elsewhere_of_not_patch d hmem f.first.kind (not_patch_of_own (own_of_mem hown)))
  · exact .elsewhere (hbefore a hpatch)

end Left

end Draft

end DartScaffold.Run
