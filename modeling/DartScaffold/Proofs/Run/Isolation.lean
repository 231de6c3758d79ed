import DartScaffold.Proofs.Run.Page

/-!
The samples of one API do not disturb the others. What an API leaves in a run of its page is a function of
what its own samples show, of the files as they were before, and, for the mapper's block alone, of the
mapper names that were claimed before its turn. So two runs that differ in what only another API reads
leave the same of it, but for the names of its extensions on nested objects.
-/

namespace DartScaffold

open Aggregate (BlockKey FileKind Fragment Node View blockAt makeBlock suppliedAt viewAt)
open ClassName (Scope)
open Disk (Entry Frame Location SameFile SameText)

namespace Aggregate

variable {skeleton : String} {key : BlockKey} {entry : Option Entry}

/-- Where a merge leaves a block at all, its indent is told by what was there before. -/
theorem suppliedAt_cases (skeleton : String) (key : BlockKey) (entry : Option Entry) :
    (∀ body, suppliedAt skeleton key body entry = none) ∨
      ∃ indent, ∀ body, suppliedAt skeleton key body entry = some (makeBlock key body indent) := by
  by_cases hentry : entry = some .directory
  · subst hentry
    exact .inl fun _ => rfl
  · simp only [suppliedAt_of_ne hentry]
    cases viewAt skeleton key entry with
    | error failure => exact .inl fun _ => rfl
    | ok v => exact .inr ⟨v.indent, fun _ => rfl⟩

end Aggregate

namespace Run

/-! ### What a turn leaves -/

namespace Turn

variable {d e : Disk} {known : String} {u : Draft} {b b' : Bench}
  (h : Turn u.plan u.site d known d e u b b') (hsettled : u.site.Settled u.plan d)
  (haccepted : u.api ∈ u.site.accepted)

include h

/-- All of its own files are saved. -/
theorem map_fst_savings : (u.savings (nameOn d u.plan known)).map Prod.fst =
    ApiUnit.ownPlaces u.plan u.site u.api := by
  have hlayers : u.site.wantsLayers u.plan = true →
      ∃ fs, u.layerFragments (nameOn d u.plan known) = .ok fs := by
    intro hwants
    obtain ⟨name, fs, hname, hfs⟩ := u.layerFragments_of_performAll b.scope hwants h.run
    exact ⟨fs, hname ▸ hfs⟩
  rw [u.map_fst_savings b.scope, u.saved_actions b.scope hlayers]

include hsettled haccepted

/-- Its own files are as they are saved. -/
theorem entry?_saving {saving : Location × Twin String}
    (hsaving : saving ∈ u.savings (nameOn d u.plan known)) :
    e.entry? (d.absoluteKey saving.1) =
      Disk.rewritten saving.2.first (d.entry? (d.absoluteKey saving.1)) := by
  have hl : saving.1 ∈ ApiUnit.ownPlaces u.plan u.site u.api :=
    h.map_fst_savings ▸ List.mem_map_of_mem hsaving
  have hplace := Site.ownPlaces_subset haccepted hl
  have hheld := h.before.held saving.1 hl _ (Action.held_self (hsettled.leads _ hplace))
  have hleft := Draft.held_savings hsettled.apart (Draft.within_places haccepted) h.frame h.run hsaving
    hplace hheld
  exact (h.after.held saving.1 hl _ hleft).entry

/-- Its blocks are as its fragments have them. -/
theorem blockAt_fragment (hplain : u.Plain) {f : Twin Fragment}
    (hf : f ∈ u.fragments b.scope (nameOn d u.plan known)) {block : String × String}
    (hblock : block ∈ f.first.blocks) :
    blockAt ⟨block.1, u.api.name⟩ (e.entry? (d.absoluteKey (u.site.aggregate f.first.kind))) =
      suppliedAt (u.site.skeleton f.first.kind) ⟨block.1, u.api.name⟩ block.2
        (d.entry? (d.absoluteKey (u.site.aggregate f.first.kind))) := by
  by_cases hdirectory : d.entry? (d.absoluteKey (u.site.aggregate f.first.kind)) = some .directory
  · rw [hdirectory, h.frame_end.directory _ hdirectory]
    rfl
  · have hplace := @Site.aggregate_mem_places u.plan u.site f.first.kind
    have hseen := h.before.seen f.first.kind block.1 _
      (Action.seen_self (hsettled.leads _ hplace) _ _)
    have hleft := Draft.seen_fragment hsettled.apart (Draft.within_places haccepted) h.frame h.run hplain
      h.safe hf hblock hplace hdirectory hseen
    have hview := (h.after.seen f.first.kind block.1 _ hleft).view
    rw [Aggregate.blockAt_eq (u.site.isSkeleton_skeleton f.first.kind).blocks, hview,
      Aggregate.suppliedAt_of_ne hdirectory]
    cases viewAt (u.site.skeleton f.first.kind) ⟨block.1, u.api.name⟩
      (d.entry? (d.absoluteKey (u.site.aggregate f.first.kind))) <;> rfl

/-- Where it has no fragment, its blocks are as they were. -/
theorem blockAt_other (hplain : u.Plain) {kind : FileKind} {part : String}
    (hpart : ∀ f ∈ u.fragments b.scope (nameOn d u.plan known), f.first.kind = kind →
      ∀ block ∈ f.first.blocks, block.1 ≠ part) :
    blockAt ⟨part, u.api.name⟩ (e.entry? (d.absoluteKey (u.site.aggregate kind))) =
      blockAt ⟨part, u.api.name⟩ (d.entry? (d.absoluteKey (u.site.aggregate kind))) := by
  have hplace := @Site.aggregate_mem_places u.plan u.site kind
  have hwithin := @Draft.within_places u b.scope (nameOn d u.plan known) haccepted
  have hseen := h.before.seen kind part _ (Action.seen_self (hsettled.leads _ hplace) _ _)
  have hleft := Action.seen_performAll hsettled.apart hplace h.frame u.plan.mode
    (fun a ha => ⟨Draft.passes_actions d hplain h.safe (fun f hf hkind block hblock heq =>
      hpart f hf hkind block hblock (congrArg BlockKey.part heq).symm) a ha, hwithin a ha⟩) hseen
  rw [h.run] at hleft
  have hview := (h.after.seen kind part _ hleft).view
  have hkeys := (u.site.isSkeleton_skeleton kind).blocks
  rw [Aggregate.blockAt_eq hkeys, Aggregate.blockAt_eq hkeys, hview]

/-- The mapper's block, by the names that are claimed in the turn. -/
theorem blockAt_mapper (hplain : u.Plain) (hmodel : u.api.returnsModel = true) :
    blockAt ⟨Mapper.sectionName, u.api.name⟩ (e.entry? (d.absoluteKey (u.site.aggregate .mapper))) =
      suppliedAt (u.site.skeleton .mapper) ⟨Mapper.sectionName, u.api.name⟩
        (Mapper.blockText u.api.name u.responseFields.first
          (Mapper.claimsOf u.api.name u.responseFields.first b.scope))
        (d.entry? (d.absoluteKey (u.site.aggregate .mapper))) := by
  obtain ⟨hkind, hblocks⟩ := u.mapper_block b.scope
  have hfirst : (Prod.fst <$> u.mapper b.scope).first = (u.mapper b.scope).first.1 :=
    Aggregate.first_map _ _
  have hf : Prod.fst <$> u.mapper b.scope ∈ u.fragments b.scope (nameOn d u.plan known) := by
    rw [Draft.fragments, Draft.mapperFragments, if_pos hmodel]
    exact List.mem_append_left _ List.mem_cons_self
  have hblock : (Mapper.sectionName, Mapper.blockText u.api.name u.responseFields.first
      (Mapper.claimsOf u.api.name u.responseFields.first b.scope)) ∈
        (Prod.fst <$> u.mapper b.scope).first.blocks := by
    rw [hfirst, hblocks]
    exact List.mem_cons_self
  have hleft := h.blockAt_fragment hsettled haccepted hplain hf hblock
  rwa [hfirst, hkind] at hleft

/-- An API without a model has no mapper. -/
theorem blockAt_mapper_of_none (hplain : u.Plain) (hmodel : u.api.returnsModel = false)
    (part : String) :
    blockAt ⟨part, u.api.name⟩ (e.entry? (d.absoluteKey (u.site.aggregate .mapper))) =
      blockAt ⟨part, u.api.name⟩ (d.entry? (d.absoluteKey (u.site.aggregate .mapper))) := by
  refine h.blockAt_other hsettled haccepted hplain fun f hf hkind => ?_
  rcases u.mem_fragments b.scope _ hf with hmapper | ⟨fs, hfs, hlayer⟩
  · rw [(u.mem_mapperFragments b.scope hmapper).1] at hmodel
    contradiction
  · exact absurd hkind (u.kind_ne_mapper _ hfs hlayer)

end Turn

/-! ### Two runs -/

/-- Where the page reads for another API than `name`, or for itself. -/
def Site.readingsBut (plan : Plan) (site : Site) (name : String) : List Location :=
  projectPlace plan ::
    (site.accepted.filter fun api => api.name != name).flatMap (ApiUnit.samplePlaces plan)

/-- The disks differ in files that only the API `name` reads, if any does, and that the page does not
write. -/
structure DifferFor (plan : Plan) (site : Site) (name : String) (d d' : Disk) : Prop where
  home : d'.home = d.home
  entries : ∀ key, d'.entry? key = d.entry? key ∨
    (∀ l ∈ site.readingsBut plan name, d.absoluteKey l ≠ key) ∧
      ∀ l ∈ site.places plan, key ∉ d.landings l

/-- The mapper's blocks of an API are the same but for the names of its extensions, where these are claimed
beside those of `scope` and of `scope'`. The names for its whole sample are the same. -/
def Renamed (api : String) (scope scope' : Scope) (block block' : Option Node) : Prop :=
  block' = block ∨ ∃ fields indent,
    (Mapper.claimsOf api fields scope').claims.lookup (api, []) =
      (Mapper.claimsOf api fields scope).claims.lookup (api, []) ∧
    block = some (makeBlock ⟨Mapper.sectionName, api⟩
      (Mapper.blockText api fields (Mapper.claimsOf api fields scope)) indent) ∧
    block' = some (makeBlock ⟨Mapper.sectionName, api⟩
      (Mapper.blockText api fields (Mapper.claimsOf api fields scope')) indent)

theorem Renamed.eq {api : String} {scope : Scope} {block block' : Option Node}
    (h : Renamed api scope scope block block') : block' = block := by
  obtain heq | ⟨_, _, -, hblock, hblock'⟩ := h
  · exact heq
  · rw [hblock, hblock']

/-- Of the API `name`, two runs that began on `d`, but for what only another API reads, leave the same. Its
turn came when `scope` was claimed, and `scope'`. -/
structure Alike (plan : Plan) (site : Site) (name : String) (scope scope' : Scope) (d e e' : Disk) :
    Prop where
  own : ∀ raw api, (name, raw) ∈ site.page.apis → ApiUnit.apiOf site name raw = .ok api →
    ∀ l ∈ ApiUnit.ownPlaces plan site api, e'.entry? (d.absoluteKey l) = e.entry? (d.absoluteKey l)
  layers : ∀ kind part, kind ≠ .mapper →
    blockAt ⟨part, name⟩ (e'.entry? (d.absoluteKey (site.aggregate kind))) =
      blockAt ⟨part, name⟩ (e.entry? (d.absoluteKey (site.aggregate kind)))
  mapper : Renamed name scope scope'
    (blockAt ⟨Mapper.sectionName, name⟩ (e.entry? (d.absoluteKey (site.aggregate .mapper))))
    (blockAt ⟨Mapper.sectionName, name⟩ (e'.entry? (d.absoluteKey (site.aggregate .mapper))))

/-- Where the same names were claimed, the mapper's blocks are the same as well. -/
theorem Alike.mapper_eq {plan : Plan} {site : Site} {name : String} {scope : Scope} {d e e' : Disk}
    (h : Alike plan site name scope scope d e e') :
    blockAt ⟨Mapper.sectionName, name⟩ (e'.entry? (d.absoluteKey (site.aggregate .mapper))) =
      blockAt ⟨Mapper.sectionName, name⟩ (e.entry? (d.absoluteKey (site.aggregate .mapper))) :=
  h.mapper.eq

section DifferFor

variable {plan : Plan} {site : Site} {name : String} {d d' : Disk} (h : DifferFor plan site name d d')

include h

/-- Where the page writes, both runs begin alike. -/
theorem DifferFor.entry?_eq {l : Location} (hl : l ∈ site.places plan) :
    d'.entry? (d.absoluteKey l) = d.entry? (d.absoluteKey l) :=
  (h.entries _).resolve_right fun ⟨_, hwritten⟩ =>
    hwritten l hl (Disk.absoluteKey_mem_landings d l)

/-- What is read for the other APIs is the same. -/
theorem DifferFor.sameFile (hsettled : site.Settled plan d) (hsettled' : site.Settled plan d')
    {l : Location} (hl : l ∈ site.readingsBut plan name) : SameFile d d' l := by
  have hreading : l ∈ site.readings plan := by
    refine (List.mem_cons.mp hl).elim (fun heq => heq ▸ List.mem_cons_self) fun hsample => ?_
    obtain ⟨api, hapi, hsample⟩ := List.mem_flatMap.mp hsample
    exact Site.samplePlaces_subset (List.mem_filter.mp hapi).1 hsample
  have hentry := (h.entries (d.absoluteKey l)).resolve_right fun ⟨hread, _⟩ => hread l hl rfl
  exact ⟨h.home, (hsettled.readings l hreading).1, (hsettled'.readings l hreading).1,
    fun bytes => by rw [hentry]⟩

end DifferFor

namespace Turn

variable {d d' e e' : Disk} {known : String} {u : Draft} {b b₁ b' b₁' : Bench} {name : String}

section Both

variable (h : Turn u.plan u.site d known d e u b b₁) (h' : Turn u.plan u.site d' known d' e' u b' b₁')
  (hsettled : u.site.Settled u.plan d) (hsettled' : u.site.Settled u.plan d')
  (hdiffer : DifferFor u.plan u.site name d d') (hproject : nameOn d' u.plan known = nameOn d u.plan known)
  (haccepted : u.api ∈ u.site.accepted) (hplain : u.Plain)

include h h' hsettled hsettled' hdiffer hproject haccepted

theorem own_alike {l : Location} (hl : l ∈ ApiUnit.ownPlaces u.plan u.site u.api) :
    e'.entry? (d.absoluteKey l) = e.entry? (d.absoluteKey l) := by
  obtain ⟨saving, hsaving, rfl⟩ := List.mem_map.mp (h.map_fst_savings ▸ hl)
  have hleft := h'.entry?_saving hsettled' haccepted (hproject ▸ hsaving)
  rw [Disk.absoluteKey_of_home hdiffer.home,
    hdiffer.entry?_eq (Site.ownPlaces_subset haccepted hl)] at hleft
  rw [hleft, h.entry?_saving hsettled haccepted hsaving]

include hplain

theorem layers_alike {kind : FileKind} (hkind : kind ≠ .mapper) (part : String) :
    blockAt ⟨part, u.api.name⟩ (e'.entry? (d.absoluteKey (u.site.aggregate kind))) =
      blockAt ⟨part, u.api.name⟩ (e.entry? (d.absoluteKey (u.site.aggregate kind))) := by
  have hentry := hdiffer.entry?_eq (Site.aggregate_mem_places kind)
  have hkey := Disk.absoluteKey_of_home hdiffer.home (u.site.aggregate kind)
  have hsame := fun (f : Twin Fragment) (heq : f.first.kind = kind) (scope scope' : Scope)
    (hf : f ∈ u.fragments scope (nameOn d u.plan known)) =>
      u.mem_fragments_of_kind_ne scope scope' _ hf (heq.symm ▸ hkind)
  by_cases hpart : ∃ f ∈ u.fragments b.scope (nameOn d u.plan known), f.first.kind = kind ∧
      ∃ block ∈ f.first.blocks, block.1 = part
  · obtain ⟨f, hf, rfl, block, hblock, rfl⟩ := hpart
    have hf' := hsame f rfl b.scope b'.scope hf
    rw [← hproject] at hf'
    have hleft := h'.blockAt_fragment hsettled' haccepted hplain hf' hblock
    rw [hkey, hentry] at hleft
    rw [hleft, h.blockAt_fragment hsettled haccepted hplain hf hblock]
  · have hnone : ∀ scope, ∀ f ∈ u.fragments scope (nameOn d u.plan known), f.first.kind = kind →
        ∀ block ∈ f.first.blocks, block.1 ≠ part :=
      fun scope f hf heq block hblock hname =>
        hpart ⟨f, hsame f heq scope b.scope hf, heq, block, hblock, hname⟩
    have hleft := h'.blockAt_other hsettled' haccepted hplain (hproject ▸ hnone b'.scope)
    rw [hkey, hentry] at hleft
    rw [hleft, h.blockAt_other hsettled haccepted hplain (hnone b.scope)]

omit hproject in
theorem mapper_renamed (hname : u.api.name ∈ u.site.page.apiNames) :
    Renamed u.api.name b.scope b'.scope
    (blockAt ⟨Mapper.sectionName, u.api.name⟩
      (e.entry? (d.absoluteKey (u.site.aggregate .mapper))))
    (blockAt ⟨Mapper.sectionName, u.api.name⟩
      (e'.entry? (d.absoluteKey (u.site.aggregate .mapper)))) := by
  have hentry := hdiffer.entry?_eq (Site.aggregate_mem_places .mapper)
  have hkey := Disk.absoluteKey_of_home hdiffer.home (u.site.aggregate .mapper)
  cases hmodel : u.api.returnsModel with
  | false =>
      have hleft := h'.blockAt_mapper_of_none hsettled' haccepted hplain hmodel Mapper.sectionName
      rw [hkey, hentry] at hleft
      rw [hleft, h.blockAt_mapper_of_none hsettled haccepted hplain hmodel]
      exact .inl rfl
  | true =>
      have hleft := h'.blockAt_mapper hsettled' haccepted hplain hmodel
      rw [hkey, hentry] at hleft
      rw [hleft, h.blockAt_mapper hsettled haccepted hplain hmodel]
      -- both runs claim the name for the whole sample before any unit begins
      obtain ⟨root, hroot⟩ := Scope.lookup_ofApis hname
      have hclaims := fun (scope : Scope) (hextends : (PageUnits.freshMemory u.site).scope.Extends scope) =>
        (hextends.trans (@Mapper.extends_claimsOf u.api.name u.responseFields.first scope)).lookup hroot
      rcases Aggregate.suppliedAt_cases (u.site.skeleton .mapper)
        ⟨Mapper.sectionName, u.api.name⟩ (d.entry? (d.absoluteKey (u.site.aggregate .mapper))) with
        hnone | ⟨indent, hsome⟩
      · exact .inl (by rw [hnone, hnone])
      · refine .inr ⟨_, indent, ?_, hsome _, hsome _⟩
        rw [hclaims b.scope h.extends_fresh, hclaims b'.scope h'.extends_fresh]

omit hproject in
/-- In a new file, mapper blocks that are the same have the same extension names. -/
theorem mapperName_eq (hmodel : u.api.returnsModel = true)
    (hnew : d.entry? (d.absoluteKey (u.site.aggregate .mapper)) = none)
    (heq : blockAt ⟨Mapper.sectionName, u.api.name⟩
        (e.entry? (d.absoluteKey (u.site.aggregate .mapper))) =
      blockAt ⟨Mapper.sectionName, u.api.name⟩
        (e'.entry? (d.absoluteKey (u.site.aggregate .mapper)))) :
    ∀ node ∈ (Shape.object u.responseFields.first).nodes,
      Mapper.mapperName (Mapper.registryOf u.api.name u.responseFields.first)
          (Mapper.claimsOf u.api.name u.responseFields.first b.scope) node.1 =
        Mapper.mapperName (Mapper.registryOf u.api.name u.responseFields.first)
          (Mapper.claimsOf u.api.name u.responseFields.first b'.scope) node.1 := by
  have hleft := h.blockAt_mapper hsettled haccepted hplain hmodel
  have hleft' := h'.blockAt_mapper hsettled' haccepted hplain hmodel
  rw [Disk.absoluteKey_of_home hdiffer.home,
    hdiffer.entry?_eq (Site.aggregate_mem_places .mapper)] at hleft'
  rw [hleft, hleft', hnew] at heq
  exact Mapper.mapperName_eq_of_makeBlock_eq h.safe h'.safe (Option.some.inj heq)

end Both

end Turn

section TwoRuns

variable {plan : Plan} {site : Site} {name other : String} {p p' q q' : Project}
  {results results' : List UnitResult} (hsettled : site.Settled plan p.disk)
  (hsettled' : site.Settled plan p'.disk) (hdiffer : DifferFor plan site name p.disk p'.disk)
  (hother : other ≠ name) (hrun : PageUnits.generate plan site p = (.ok results, q))
  (hrun' : PageUnits.generate plan site p' = (.ok results', q'))
  (hok : Succeeds other results) (hok' : Succeeds other results')

include hsettled hsettled' hdiffer hother hrun hrun' hok hok'

/-- The turns of an API in both runs begin with the same draft. -/
theorem turns_of_generate : ∃ raw api samples b b₁ b' b₁',
    (other, raw) ∈ site.page.apis ∧ (∀ found, (other, found) ∈ site.page.apis → found = raw) ∧
    ApiUnit.apiOf site other raw = .ok api ∧
    ApiUnit.draftOn p.disk plan site other raw = .ok { plan, site, api, samples } ∧
    b.scope = scopeAt plan site other p ∧ b'.scope = scopeAt plan site other p' ∧
    Turn plan site p.disk p.name p.disk q.disk { plan, site, api, samples } b b₁ ∧
    Turn plan site p'.disk p'.name p'.disk q'.disk { plan, site, api, samples } b' b₁' := by
  obtain ⟨hstems, raw, u, b, b₁, hentry, hdraft, hscope, hturn⟩ := turn_of_generate hsettled hrun hok
  obtain ⟨-, raw', u', b', b₁', hentry', hdraft', hscope', hturn'⟩ :=
    turn_of_generate hsettled' hrun' hok'
  have hunique : ∀ found, (other, found) ∈ site.page.apis → found = raw := by
    intro found hfound
    have hnames : site.page.apiNames = site.page.apis.map Prod.fst := rfl
    rw [hnames, List.map_map] at hstems
    exact congrArg Prod.snd (List.inj_on_of_nodup_map hstems hfound hentry rfl)
  obtain rfl := (hunique raw' hentry').symm
  obtain ⟨api, samples, hapi, -, rfl⟩ := ApiUnit.draftOn_eq_ok hdraft
  -- what is read for the other API is the same, so its draft is
  have hsame : ∀ found, ApiUnit.apiOf site other raw = .ok found →
      ∀ place ∈ ApiUnit.samplePlaces plan found, SameText p.disk p'.disk place := by
    intro found hfound place hplace
    obtain rfl : api = found := Except.ok.inj (hapi.symm.trans hfound)
    have hnamed : (api.name != name) = true := by
      rw [(ApiUnit.name_of_apiOf hapi).1]
      exact bne_iff_ne.mpr hother
    exact (hdiffer.sameFile hsettled hsettled' (List.mem_cons_of_mem _ (List.mem_flatMap.mpr
      ⟨api, List.mem_filter.mpr ⟨Site.mem_accepted hentry hapi, hnamed⟩, hplace⟩))).sameText
  rw [ApiUnit.draftOn_eq hsame, hdraft] at hdraft'
  obtain rfl := Except.ok.inj hdraft'
  exact ⟨raw, api, samples, b, b₁, b', b₁', hentry, hunique, hapi, hdraft, hscope, hscope', hturn,
    hturn'⟩

/-- One API's samples do not disturb what another one leaves. Two runs of a page that begin alike, but for
files that only the API `name` reads and the page does not write, leave the same own files and the same
blocks in the layers of every other API that succeeds in both. Its blocks in the mapper are the same but for
the names of the extensions on nested objects, and those are the same if the names that were claimed
before its turn are. -/
theorem alike_generate (hknown : p'.name = p.name) :
    Alike plan site other (scopeAt plan site other p) (scopeAt plan site other p') p.disk q.disk
      q'.disk := by
  obtain ⟨raw, api, samples, b, b₁, b', b₁', hentry, hunique, hapi, hdraft, hscope, hscope', hturn,
    hturn'⟩ := turns_of_generate hsettled hsettled' hdiffer hother hrun hrun' hok hok'
  rw [← hscope, ← hscope']
  have haccepted := Site.mem_accepted hentry hapi
  have hplain := hsettled.plain _ hentry _ hdraft
  obtain rfl := (ApiUnit.name_of_apiOf hapi).1
  have hproject : nameOn p'.disk plan p.name = nameOn p.disk plan p.name :=
    nameOn_eq (namedAlike_of_sameText hdiffer.home
      (hdiffer.sameFile hsettled hsettled' List.mem_cons_self).sameText) p.name
  rw [hknown] at hturn'
  have hname : api.name ∈ site.page.apiNames := List.mem_map_of_mem (f := Prod.fst) hentry
  let u : Draft := { plan, site, api, samples }
  refine ⟨fun found other hfound hother l hl => ?_, fun kind part hkind => ?_, ?_⟩
  · obtain rfl := hunique found hfound
    obtain rfl := Except.ok.inj (hapi.symm.trans hother)
    exact Turn.own_alike (u := u) hturn hturn' hsettled hsettled' hdiffer hproject haccepted hl
  · exact Turn.layers_alike (u := u) hturn hturn' hsettled hsettled' hdiffer hproject haccepted hplain
      hkind part
  · exact Turn.mapper_renamed (u := u) hturn hturn' hsettled hsettled' hdiffer haccepted hplain hname

end TwoRuns

/-- A page with two APIs whose extensions contend for one name. The first one does not come as far as the
mapper's file, since the directory of its extra model is a file. -/
def namesakes : Site :=
  { feature := { name := "auth", directory := "/work" }
    page := { name := "login", apis :=
      [("get_user", .obj [("method", .str "get"), ("path", .str "/user"),
        ("response", .str "a.json"), ("dir_extra", .str "b.json")]),
       ("get_user_profile", .obj [("method", .str "get"), ("path", .str "/profile"),
        ("response", .str "b.json")])] }
    settings := { layers := false } }

/-- An object of the first API's sample, with the name that one of the second API's would have. -/
def namesakes.claiming : String :=
  "\x7b\"profile_address\": \x7b\x7d\x7d"

/-- The sample of the first API is malformed, or claims that name. -/
def namesakes.contents : List String :=
  ["", claiming]

def namesakes.project (content : String) : Project :=
  { disk := { home := ["work"]
              entries := [(["work"], .directory), (["work", "lib"], .directory),
                (["work", "lib", "login"], .directory), (["work", "a.json"], .file content.toUTF8),
                (["work", "b.json"], .file "\x7b\"address\": \x7b\"city\": \"Oslo\"\x7d\x7d".toUTF8)] }
    name := "shop" }

def namesakes.files : List Location :=
  ([["data", "datasources", "login_remote_data_source.dart"],
    ["data", "repositories", "login_repository_impl.dart"],
    ["domain", "repositories", "login_repository.dart"],
    ["mapper.dart"],
    ["data", "models", "body", "get_user_body.dart"],
    ["data", "models", "response", "get_user_response.dart"],
    ["domain", "entities", "get_user_entity.dart"],
    ["data", "models", "body", "get_user_profile_body.dart"],
    ["data", "models", "response", "get_user_profile_response.dart"],
    ["domain", "entities", "get_user_profile_entity.dart"]].map fun parts =>
      { root := "/", parts := ["work", "lib", "login"] ++ parts }) ++
    [{ parts := ["b.json", "get_user_extra.dart"] }]

theorem namesakes.places_subset : namesakes.places {} ⊆ namesakes.files := by
  have hsubset : ∀ l ∈ namesakes.places {}, l ∈ namesakes.files := by
    decide +kernel
  exact hsubset

theorem settled_namesakes {content : String} (h : content ∈ namesakes.contents) :
    namesakes.Settled {} (namesakes.project content).disk := by
  have hways : ∀ content ∈ namesakes.contents, ∀ l ∈ namesakes.files,
      ∀ key ∈ (namesakes.project content).disk.landings l,
        ∀ other ∈ namesakes.files, key ∉ (namesakes.project content).disk.ways other := by
    decide +kernel
  have hvacant : ∀ content ∈ namesakes.contents, ∀ l ∈ namesakes.files,
      ∀ key ∈ (namesakes.project content).disk.landings l,
        ((namesakes.project content).disk.entry? key).isNone = true := by
    decide +kernel
  have hshort : ∀ l ∈ namesakes.files ++ namesakes.readings {},
      ∀ name ∈ l.parts, ¬ Disk.nameLimit < name.utf8ByteSize := by
    decide +kernel
  have hreached : ∀ content ∈ namesakes.contents, ∀ l ∈ namesakes.readings {},
      ((namesakes.project content).disk.follow ((namesakes.project content).disk.start l)
        l.parts).toOption = some ((namesakes.project content).disk.absoluteKey l) ∧
      ∀ place ∈ namesakes.files, (namesakes.project content).disk.absoluteKey l ∉
        (namesakes.project content).disk.landings place := by
    decide +kernel
  have hplain : ∀ content ∈ namesakes.contents, ∀ entry ∈ namesakes.page.apis,
      (ApiUnit.draftOn (namesakes.project content).disk {} namesakes entry.1 entry.2).toOption.all
        (fun u => decide (Aggregate.IsApiId u.api.name) && u.samples.first.headers.isNone) = true := by
    decide +kernel
  -- nothing is there yet where the page writes
  have hfiles := @namesakes.places_subset
  have hnone : ∀ l ∈ namesakes.places {}, ∀ key ∈ (namesakes.project content).disk.landings l,
      (namesakes.project content).disk.entry? key = none :=
    fun l hl key hkey => Option.isNone_iff_eq_none.mp (hvacant _ h l (hfiles hl) key hkey)
  refine ⟨⟨fun l hl key hkey other hother => hways _ h l (hfiles hl) key hkey other (hfiles hother),
    fun l hl hdirectory => ?_⟩, fun l hl => ⟨hshort l (List.mem_append_left _ (hfiles hl)), ?_⟩,
    fun l hl => ⟨⟨hshort l (List.mem_append_right _ hl), fun _ _ => ?_⟩, fun place hplace =>
      (hreached _ h l hl).2 place (hfiles hplace)⟩, fun entry hentry u hu => ?_, fun hpruning => ?_⟩
  · rw [hnone l hl _ (List.mem_cons_of_mem _ List.mem_cons_self)] at hdirectory
    exact absurd hdirectory.symm (Option.some_ne_none _)
  · intro bytes hfile
    rw [hnone l hl _ List.mem_cons_self] at hfile
    exact absurd hfile.symm (Option.some_ne_none _)
  · have hfollow := (hreached _ h l hl).1
    revert hfollow
    cases (namesakes.project content).disk.follow ((namesakes.project content).disk.start l) l.parts with
    | error cause => simp [Except.toOption]
    | ok key => simp [Except.toOption]
  · have hall := hplain _ h entry hentry
    rw [hu] at hall
    obtain ⟨hname, hheaders⟩ := Bool.and_eq_true_iff.mp hall
    refine ⟨of_decide_eq_true hname, fun headers hsome => ?_⟩
    rw [Option.isNone_iff_eq_none.mp hheaders] at hsome
    exact absurd hsome (Option.not_mem_none _)
  · have hkept : namesakes.wantsPruning {} = false := rfl
    exact absurd (hkept.symm.trans hpruning) Bool.false_ne_true

theorem differFor_namesakes (content content' : String) :
    DifferFor {} namesakes "get_user" (namesakes.project content).disk
      (namesakes.project content').disk := by
  have hread : ∀ l ∈ namesakes.readingsBut {} "get_user",
      (namesakes.project "").disk.absoluteKey l ≠ ["work", "a.json"] := by
    decide +kernel
  have hwritten : ∀ l ∈ namesakes.files,
      ["work", "a.json"] ∉ (namesakes.project "").disk.landings l := by
    decide +kernel
  refine ⟨rfl, fun key => ?_⟩
  by_cases hkey : key = ["work", "a.json"]
  · rw [hkey]
    exact .inr ⟨hread, fun l hl => hwritten l (namesakes.places_subset hl)⟩
  · have hne : (key == ["work", "a.json"]) = false := beq_eq_false_iff_ne.mpr hkey
    exact .inl (by simp only [Disk.entry?, namesakes.project, List.lookup_cons, hne])

/-- The second API succeeds in each run. -/
theorem succeeds_namesakes {content : String} (h : content ∈ namesakes.contents) :
    ∃ results project', PageUnits.generate {} namesakes (namesakes.project content) =
      (.ok results, project') ∧ Succeeds "get_user_profile" results := by
  have hcheck : ∀ content ∈ namesakes.contents,
      (PageUnits.generate {} namesakes (namesakes.project content)).1.toOption.any (fun results =>
        results.any fun r => r.api == some "get_user_profile" && r.succeeded) = true := by
    decide +kernel
  have hany := hcheck content h
  rcases hrun : PageUnits.generate {} namesakes (namesakes.project content) with ⟨outcome, project'⟩
  rw [hrun] at hany
  cases outcome with
  | error failure => exact absurd hany Bool.false_ne_true
  | ok results =>
      obtain ⟨r, hr, hdone⟩ := List.any_eq_true.mp hany
      obtain ⟨hname, hsucceeded⟩ := Bool.and_eq_true_iff.mp hdone
      exact ⟨results, project', rfl, r, hr, eq_of_beq hname, hsucceeded⟩

theorem alike_generate_namesakes :
    ∃ results results' q q',
      PageUnits.generate {} namesakes (namesakes.project "") = (.ok results, q) ∧
      PageUnits.generate {} namesakes (namesakes.project namesakes.claiming) =
        (.ok results', q') ∧
      Alike {} namesakes "get_user_profile" (scopeAt {} namesakes "get_user_profile" (namesakes.project ""))
        (scopeAt {} namesakes "get_user_profile" (namesakes.project namesakes.claiming))
        (namesakes.project "").disk q.disk q'.disk := by
  have hfirst : "" ∈ namesakes.contents := List.mem_cons_self
  have hsecond : namesakes.claiming ∈ namesakes.contents :=
    List.mem_cons_of_mem _ List.mem_cons_self
  obtain ⟨results, q, hrun, hok⟩ := succeeds_namesakes hfirst
  obtain ⟨results', q', hrun', hok'⟩ := succeeds_namesakes hsecond
  exact ⟨results, results', q, q', hrun, hrun', alike_generate (settled_namesakes hfirst)
    (settled_namesakes hsecond) (differFor_namesakes _ _) (by decide) hrun hrun' hok hok' rfl⟩

/-- What the second API has in the mapper is not the same in both runs. -/
theorem renamed_by_namesake :
    ∃ results results' q q',
      PageUnits.generate {} namesakes (namesakes.project "") = (.ok results, q) ∧
      PageUnits.generate {} namesakes (namesakes.project namesakes.claiming) =
        (.ok results', q') ∧
      DifferFor {} namesakes "get_user" (namesakes.project "").disk
        (namesakes.project namesakes.claiming).disk ∧
      Succeeds "get_user_profile" results ∧ Succeeds "get_user_profile" results' ∧
      blockAt ⟨Mapper.sectionName, "get_user_profile"⟩ (q.disk.entry?
          ((namesakes.project "").disk.absoluteKey (namesakes.aggregate .mapper))) ≠
        blockAt ⟨Mapper.sectionName, "get_user_profile"⟩ (q'.disk.entry?
          ((namesakes.project "").disk.absoluteKey (namesakes.aggregate .mapper))) := by
  have hfirst : "" ∈ namesakes.contents := List.mem_cons_self
  have hsecond : namesakes.claiming ∈ namesakes.contents :=
    List.mem_cons_of_mem _ List.mem_cons_self
  obtain ⟨results, q, hrun, hok⟩ := succeeds_namesakes hfirst
  obtain ⟨results', q', hrun', hok'⟩ := succeeds_namesakes hsecond
  refine ⟨results, results', q, q', hrun, hrun', differFor_namesakes _ _, hok, hok', fun heq => ?_⟩
  have hnames : ∀ entry ∈ namesakes.page.apis, entry.1 = "get_user_profile" →
      (ApiUnit.draftOn (namesakes.project "").disk {} namesakes entry.1 entry.2).toOption.all (fun u =>
        u.api.returnsModel && (Shape.object u.responseFields.first).nodes.any fun node =>
          Mapper.mapperName (Mapper.registryOf u.api.name u.responseFields.first)
              (Mapper.claimsOf u.api.name u.responseFields.first
                (scopeAt {} namesakes "get_user_profile" (namesakes.project ""))) node.1 !=
            Mapper.mapperName (Mapper.registryOf u.api.name u.responseFields.first)
              (Mapper.claimsOf u.api.name u.responseFields.first
                (scopeAt {} namesakes "get_user_profile"
                  (namesakes.project namesakes.claiming))) node.1) = true := by
    decide +kernel
  obtain ⟨raw, api, samples, b, b₁, b', b₁', hentry, -, hapi, hdraft, hscope, hscope', hturn,
    hturn'⟩ := turns_of_generate (settled_namesakes hfirst) (settled_namesakes hsecond)
      (differFor_namesakes _ _) (by decide) hrun hrun' hok hok'
  -- blocks that are the same would have the same names
  have hall := hnames _ hentry rfl
  rw [hdraft] at hall
  obtain ⟨hmodel, hany⟩ := Bool.and_eq_true_iff.mp hall
  obtain ⟨node, hnode, hdistinct⟩ := List.any_eq_true.mp hany
  have hname := (ApiUnit.name_of_apiOf hapi).1
  rw [← hname] at heq
  have hsame := Turn.mapperName_eq (u := { plan := {}, site := namesakes, api, samples }) hturn hturn'
    (settled_namesakes hfirst) (settled_namesakes hsecond) (differFor_namesakes _ _)
    (Site.mem_accepted hentry hapi) ((settled_namesakes hfirst).plain _ hentry _ hdraft) hmodel ?_ heq
    node hnode
  · rw [hscope, hscope'] at hsame
    exact bne_iff_ne.mp hdistinct hsame
  · have hnew : ((namesakes.project "").disk.entry?
        ((namesakes.project "").disk.absoluteKey (namesakes.aggregate .mapper))).isNone = true := by
      decide +kernel
    exact Option.isNone_iff_eq_none.mp hnew

end Run

end DartScaffold
