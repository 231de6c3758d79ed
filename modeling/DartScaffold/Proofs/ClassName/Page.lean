import DartScaffold.Proofs.ClassName.Session
import Mathlib.Logic.Function.Basic

/-!
The mapper names of all APIs of a page. Every API has its own registry, and all registries claim mapper
names in one scope, so what one is asked may change what another answers later. Two facts about the
scope survive every request: no name has two owners, and no owner loses its name. They need nothing of
the registries, not even that a root comes before what is inside it.
-/

namespace DartScaffold.ClassName

/-- Each API's registry, under the name of the API, and the scope that they share. -/
structure Page where
  registry : String → Registry
  scope : Scope

namespace Page

/-- What a name is for: a class, or an extension of the mapper. -/
inductive Label where
  | artifact (kind : Artifact)
  | onResponse
  | onEntity
  deriving DecidableEq

namespace Label

def kind : Label → Artifact
  | artifact kind => kind
  | onResponse | onEntity => .mapper

/-- What an extension has after the name of the mapper. -/
def suffix : Label → String
  | artifact _ => ""
  | onResponse => "ResponseMapper"
  | onEntity => "EntityMapper"

def IsExtension (label : Label) : Prop :=
  label = onResponse ∨ label = onEntity

end Label

structure Answer where
  owner : Owner
  label : Label
  name : String
  deriving DecidableEq

inductive Request where
  | allocate (path : Path) (name : String) (kind : Artifact) (isRoot : Bool)
  | lookup (path : Path) (kind : Artifact)
  | names (kind : Artifact)
  | extensionNames (path : Path)

/-- Before any request. -/
def fresh (apis : List String) (reserved : String → List String) : Page where
  registry api := { api, reserved := reserved api }
  scope := .ofApis apis

def session (page : Page) (api : String) : Session :=
  ⟨page.registry api, page.scope⟩

def put (page : Page) (api : String) (σ : Session) : Page :=
  ⟨Function.update page.registry api σ.registry, σ.scope⟩

def ofSession (page : Page) (api : String) (outcome : List ClassName.Answer × Session) :
    List Answer × Page :=
  (outcome.1.map fun a => ⟨(api, a.path), .artifact a.kind, a.name⟩, page.put api outcome.2)

def call (page : Page) (api : String) : Request → List Answer × Page
  | .allocate path name kind isRoot =>
    page.ofSession api ((page.session api).allocate path name kind isRoot)
  | .lookup path kind => page.ofSession api ((page.session api).call (.lookup path kind))
  | .names kind => page.ofSession api ((page.session api).call (.names kind))
  | .extensionNames path =>
    let (found, scope) := (page.registry api).extensionNames page.scope path
    let answers := found.toList.flatMap fun (response, entity) =>
      [⟨(api, path), .onResponse, response⟩, ⟨(api, path), .onEntity, entity⟩]
    (answers, page.put api ⟨page.registry api, scope⟩)

def calls (page : Page) : List (String × Request) → List Answer × Page
  | [] => ([], page)
  | (api, request) :: rest =>
    let (answers, page) := page.call api request
    let (more, page) := page.calls rest
    (answers ++ more, page)

/-- The request that an answer belongs to. -/
def Answer.request (a : Answer) : Request :=
  match a.label with
  | .artifact kind => .lookup a.owner.2 kind
  | .onResponse | .onEntity => .extensionNames a.owner.2

/-- An answer that another request would give again. -/
def Gives (page : Page) (a : Answer) : Prop :=
  ∃ name, (page.session a.owner.1).Gives ⟨a.owner.2, a.label.kind, name⟩ ∧
    a.name = name ++ a.label.suffix

structure Sound (page : Page) : Prop where
  api : ∀ api, (page.registry api).api = api
  paths : ∀ api, ((page.registry api).stems.map Prod.fst).Nodup
  distinct : page.scope.names.Nodup

/-- What requests do to a page. -/
structure Step (page : Page) (answers : List Answer) (page' : Page) : Prop where
  sound : page'.Sound
  grows : ∀ api, (page.session api).Extends (page'.session api)
  gives : ∀ a ∈ answers, page'.Gives a

variable {page page' page'' : Page} {answers more : List Answer} {api : String}

theorem Step.refl (h : page.Sound) : Step page [] page :=
  ⟨h, fun _ => ⟨.refl _, .refl _⟩, by simp⟩

theorem Step.kept (h : Step page answers page') {a : Answer} (ha : page.Gives a) :
    page'.Gives a := by
  obtain ⟨name, hname, hsuffix⟩ := ha
  exact ⟨name, (h.grows a.owner.1).gives hname, hsuffix⟩

theorem Step.trans (h : Step page answers page') (h' : Step page' more page'') :
    Step page (answers ++ more) page'' where
  sound := h'.sound
  grows api :=
    ⟨(h.grows api).registry.trans (h'.grows api).registry,
      (h.grows api).scope.trans (h'.grows api).scope⟩
  gives := by
    intro a ha
    rcases List.mem_append.mp ha with ha | ha
    · exact h'.kept (h.gives a ha)
    · exact h'.gives a ha

/-! ### One request -/

theorem session_put_self (page : Page) (api : String) (σ : Session) :
    (page.put api σ).session api = σ := by
  simp [session, put]

/-- What happens to one registry and the scope leaves the other registries alone. -/
theorem step_put (h : page.Sound) {σ : Session} (hgrows : (page.session api).Extends σ)
    (hpaths : (σ.registry.stems.map Prod.fst).Nodup) (hdistinct : σ.scope.names.Nodup)
    (hgives : ∀ a ∈ answers, a.owner.1 = api ∧
      ∃ name, σ.Gives ⟨a.owner.2, a.label.kind, name⟩ ∧ a.name = name ++ a.label.suffix) :
    Step page answers (page.put api σ) := by
  have hself : (page.put api σ).registry api = σ.registry := by simp [put]
  have hother : ∀ other, other ≠ api → (page.put api σ).registry other = page.registry other :=
    fun other hne => by simp [put, hne]
  refine ⟨⟨fun other => ?_, fun other => ?_, hdistinct⟩, fun other => ?_, fun a ha => ?_⟩
  · by_cases hapi : other = api
    · subst hapi
      rw [hself]
      exact hgrows.registry.api.trans (h.api other)
    · rw [hother other hapi]
      exact h.api other
  · by_cases hapi : other = api
    · subst hapi
      rw [hself]
      exact hpaths
    · rw [hother other hapi]
      exact h.paths other
  · by_cases hapi : other = api
    · subst hapi
      rw [session_put_self]
      exact hgrows
    · refine ⟨?_, hgrows.scope⟩
      change Registry.Extends _ ((page.put api σ).registry other)
      rw [hother other hapi]
      exact .refl _
  · obtain ⟨rfl, hname⟩ := hgives a ha
    rw [Gives, session_put_self]
    exact hname

theorem nodup_publicName {r : Registry} {scope : Scope} (h : scope.names.Nodup) (path : Path)
    (stem : Stem) (kind : Artifact) : (r.publicName scope path stem kind).2.names.Nodup := by
  by_cases hkind : kind = .mapper
  · subst hkind
    exact Scope.nodup_claim h _ _
  · rw [Session.publicName_of_ne_mapper _ _ _ _ hkind]
    exact h

theorem step_ofSession (h : page.Sound) {outcome : List ClassName.Answer × Session}
    (hgrows : (page.session api).Extends outcome.2)
    (hpaths : (outcome.2.registry.stems.map Prod.fst).Nodup)
    (hdistinct : outcome.2.scope.names.Nodup) (hgives : ∀ a ∈ outcome.1, outcome.2.Gives a) :
    Step page (page.ofSession api outcome).1 (page.ofSession api outcome).2 := by
  refine step_put h hgrows hpaths hdistinct fun a ha => ?_
  obtain ⟨told, htold, rfl⟩ := List.mem_map.mp ha
  exact ⟨rfl, told.name, hgives told htold, (String.append_empty).symm⟩

theorem step_lookup (h : page.Sound) (api : String) (path : Path) (kind : Artifact) :
    Step page (page.call api (.lookup path kind)).1 (page.call api (.lookup path kind)).2 := by
  rw [call]
  cases hstem : (page.registry api).stem? path with
  | none =>
      have hcall : (page.session api).call (.lookup path kind) = ([], page.session api) := by
        simp [Session.call, Registry.lookup, session, hstem]
      rw [hcall]
      exact step_ofSession h ⟨.refl _, .refl _⟩ (h.paths api) h.distinct (by simp)
  | some stem =>
      have hcall : (page.session api).call (.lookup path kind) =
          ([⟨path, kind, ((page.registry api).publicName page.scope path stem kind).1⟩],
            ⟨page.registry api, ((page.registry api).publicName page.scope path stem kind).2⟩) := by
        simp [Session.call, Registry.lookup, session, hstem]
      rw [hcall]
      refine step_ofSession h (Session.extends_publicName (page.session api) path stem kind)
        (h.paths api) (nodup_publicName h.distinct path stem kind) fun a ha => ?_
      obtain rfl := List.mem_singleton.mp ha
      exact Session.gives_publicName (σ := page.session api) hstem kind

theorem step_names (h : page.Sound) (api : String) (kind : Artifact) :
    Step page (page.call api (.names kind)).1 (page.call api (.names kind)).2 := by
  let Told (told : List (Path × String) × Scope) : Prop :=
    (page.session api).Extends ⟨page.registry api, told.2⟩ ∧ told.2.names.Nodup ∧
      ∀ entry ∈ told.1, Session.Gives ⟨page.registry api, told.2⟩ ⟨entry.1, kind, entry.2⟩
  -- the names are asked for one after the other
  have hnames : Told ((page.registry api).names page.scope kind) := by
    refine List.foldlRecOn (page.registry api).stems _ ?_ ?_
    · exact ⟨⟨.refl _, .refl _⟩, h.distinct, by simp⟩
    · rintro ⟨found, scope⟩ ⟨hgrows, hdistinct, hgives⟩ ⟨path, stem⟩ hmem
      have hstem := Registry.stem?_of_mem (h.paths api) hmem
      have hnext := Session.extends_publicName ⟨page.registry api, scope⟩ path stem kind
      refine ⟨⟨.refl _, hgrows.scope.trans hnext.scope⟩, nodup_publicName hdistinct path stem kind,
        fun entry hentry => ?_⟩
      rcases List.mem_append.mp hentry with hentry | hentry
      · exact hnext.gives (hgives entry hentry)
      · obtain rfl := List.mem_singleton.mp hentry
        exact Session.gives_publicName (σ := ⟨page.registry api, scope⟩) hstem kind
  obtain ⟨hgrows, hdistinct, hgives⟩ := hnames
  refine step_ofSession h hgrows (h.paths api) hdistinct fun a ha => ?_
  obtain ⟨entry, hentry, rfl⟩ := List.mem_map.mp ha
  exact hgives entry hentry

theorem step_allocate (h : page.Sound) (api : String) (path : Path) (name : String)
    (kind : Artifact) (isRoot : Bool) :
    Step page (page.call api (.allocate path name kind isRoot)).1
      (page.call api (.allocate path name kind isRoot)).2 := by
  obtain ⟨stem, hstem⟩ := Registry.stem?_ensure (page.registry api) path name isRoot
  have hensure := Registry.extends_ensure (page.registry api) path name isRoot
  have hnamed := Session.extends_publicName
    ⟨(page.registry api).ensure path name isRoot, page.scope⟩ path stem kind
  have hcall : (page.session api).allocate path name kind isRoot =
      ([⟨path, kind, (((page.registry api).ensure path name isRoot).publicName page.scope path
          stem kind).1⟩],
        ⟨(page.registry api).ensure path name isRoot,
          (((page.registry api).ensure path name isRoot).publicName page.scope path stem kind).2⟩)
      := by
    simp [Session.allocate, Registry.allocate, Registry.lookup, session, hstem]
  rw [call, hcall]
  refine step_ofSession h ⟨hensure, hnamed.scope⟩
    (Registry.nodup_paths_ensure (h.paths api) path name isRoot)
    (nodup_publicName h.distinct path stem kind) fun a ha => ?_
  obtain rfl := List.mem_singleton.mp ha
  exact Session.gives_publicName
    (σ := ⟨(page.registry api).ensure path name isRoot, page.scope⟩) hstem kind

/-- The extensions of a mapper with this name. -/
def Answer.extensions (a : Answer) : List Answer :=
  [⟨a.owner, .onResponse, a.name ++ Label.onResponse.suffix⟩,
    ⟨a.owner, .onEntity, a.name ++ Label.onEntity.suffix⟩]

theorem call_extensionNames (page : Page) (api : String) (path : Path) :
    page.call api (.extensionNames path) =
      ((page.call api (.lookup path .mapper)).1.flatMap Answer.extensions,
        (page.call api (.lookup path .mapper)).2) := by
  cases hstem : (page.registry api).stem? path with
  | none => simp [call, ofSession, Session.call, Registry.extensionNames, Registry.lookup,
      session, hstem]
  | some stem => simp [call, ofSession, Session.call, Registry.extensionNames, Registry.lookup,
      session, hstem, Answer.extensions, Label.suffix]

theorem label_of_lookup {path : Path} {kind : Artifact} {a : Answer}
    (h : a ∈ (page.call api (.lookup path kind)).1) :
    a.owner = (api, path) ∧ a.label = .artifact kind := by
  rw [call, ofSession, Session.call] at h
  simp only [List.map_map, List.mem_map, Function.comp_def] at h
  obtain ⟨name, -, rfl⟩ := h
  exact ⟨rfl, rfl⟩

theorem step_extensionNames (h : page.Sound) (api : String) (path : Path) :
    Step page (page.call api (.extensionNames path)).1
      (page.call api (.extensionNames path)).2 := by
  have hlookup := step_lookup h api path .mapper
  rw [call_extensionNames]
  refine ⟨hlookup.sound, hlookup.grows, fun a ha => ?_⟩
  obtain ⟨mapper, hmapper, ha⟩ := List.mem_flatMap.mp ha
  obtain ⟨name, hname, hsuffix⟩ := hlookup.gives mapper hmapper
  -- the extensions go after the name of the mapper, which itself has no suffix
  have hlabel := (label_of_lookup hmapper).2
  rw [hlabel, Label.suffix, String.append_empty] at hsuffix
  rw [hlabel, ← hsuffix] at hname
  rcases List.mem_pair.mp ha with rfl | rfl
  · exact ⟨mapper.name, hname, rfl⟩
  · exact ⟨mapper.name, hname, rfl⟩

theorem step_call (h : page.Sound) (api : String) (request : Request) :
    Step page (page.call api request).1 (page.call api request).2 := by
  cases request with
  | allocate path name kind isRoot => exact step_allocate h api path name kind isRoot
  | lookup path kind => exact step_lookup h api path kind
  | names kind => exact step_names h api kind
  | extensionNames path => exact step_extensionNames h api path

theorem step_calls (h : page.Sound) (requests : List (String × Request)) :
    Step page (page.calls requests).1 (page.calls requests).2 := by
  induction requests generalizing page with
  | nil => exact .refl h
  | cons first requests ih =>
      obtain ⟨api, request⟩ := first
      have hfirst := step_call h api request
      exact hfirst.trans (ih hfirst.sound)

theorem sound_fresh (apis : List String) (reserved : String → List String) :
    (fresh apis reserved).Sound :=
  ⟨fun _ => rfl, fun _ => List.nodup_nil, (Scope.safe_ofApis apis).distinct⟩

/-! ### The answers of a run -/

theorem lookup_of_gives {path : Path} {kind : Artifact} {name : String}
    (h : (page.session api).Gives ⟨path, kind, name⟩) :
    (page.call api (.lookup path kind)).1 = [⟨(api, path), .artifact kind, name⟩] := by
  obtain ⟨stem, hstem, hname⟩ := h
  have hpublic : ((page.registry api).publicName page.scope path stem kind).1 = name := by
    by_cases hkind : kind = .mapper
    · subst hkind
      have hclaim : page.scope.claims.lookup ((page.registry api).api, path) = some name := hname
      simp only [Registry.publicName, Scope.claim]
      rw [hclaim]
    · rw [Session.publicName_of_ne_mapper _ _ _ _ hkind]
      exact ((if_neg hkind).mp hname).symm
  have hfound : (page.registry api).stem? path = some stem := hstem
  simp [call, ofSession, Session.call, Registry.lookup, session, hfound, hpublic]

/-- What holds of a name is answered whenever it is asked for. -/
theorem Gives.answered {a : Answer} (ha : page.Gives a) :
    a ∈ (page.call a.owner.1 a.request).1 := by
  obtain ⟨⟨api, path⟩, label, text⟩ := a
  obtain ⟨name, hname, htext⟩ := ha
  have hlookup := lookup_of_gives hname
  cases label with
  | artifact kind =>
      obtain rfl : text = name := by simpa [Label.suffix] using htext
      exact hlookup ▸ List.mem_singleton_self _
  | onResponse =>
      obtain rfl : text = name ++ Label.onResponse.suffix := htext
      rw [Answer.request, call_extensionNames]
      exact List.mem_flatMap.mpr ⟨_, hlookup ▸ List.mem_singleton_self _, by
        simp [Answer.extensions]⟩
  | onEntity =>
      obtain rfl : text = name ++ Label.onEntity.suffix := htext
      rw [Answer.request, call_extensionNames]
      exact List.mem_flatMap.mpr ⟨_, hlookup ▸ List.mem_singleton_self _, by
        simp [Answer.extensions]⟩

/-- The same question has one answer. -/
theorem Gives.name_eq {a b : Answer} (ha : page.Gives a) (hb : page.Gives b)
    (howner : a.owner = b.owner) (hlabel : a.label = b.label) : a.name = b.name := by
  obtain ⟨name, hname, hsuffix⟩ := ha
  obtain ⟨name', hname', hsuffix'⟩ := hb
  rw [← howner, ← hlabel] at hname'
  have hsame : name = name' := by
    have hanswer := (lookup_of_gives hname).symm.trans (lookup_of_gives hname')
    simpa using hanswer
  rw [hsuffix, hsuffix', hsame, hlabel]

/-- The two extensions of mappers never have one name: what comes before their last word differs. -/
theorem onResponse_ne_onEntity (name name' : String) :
    name ++ Label.onResponse.suffix ≠ name' ++ Label.onEntity.suffix := by
  intro heq
  have hlists : (name.toList ++ "Respons".toList) ++ "eMapper".toList =
      (name'.toList ++ "Entit".toList) ++ "yMapper".toList := by
    have htexts := congrArg String.toList heq
    rw [String.toList_append, String.toList_append] at htexts
    rw [List.append_assoc, List.append_assoc]
    exact htexts
  exact absurd (List.append_inj' hlists rfl).2 (by decide)

theorem mapper_of_gives (h : page.Sound) {owner : Owner} {name : String}
    (hname : (page.session owner.1).Gives ⟨owner.2, .mapper, name⟩) :
    page.scope.claims.lookup owner = some name := by
  obtain ⟨stem, -, hclaim⟩ := hname
  have hlookup : page.scope.claims.lookup ((page.registry owner.1).api, owner.2) = some name :=
    hclaim
  rwa [h.api] at hlookup

theorem Gives.extension_ne (h : page.Sound) {a b : Answer} (ha : page.Gives a) (hb : page.Gives b)
    (hasked : a.label.IsExtension) (hasked' : b.label.IsExtension)
    (hne : (a.owner, a.label) ≠ (b.owner, b.label)) : a.name ≠ b.name := by
  obtain ⟨name, hname, hsuffix⟩ := ha
  obtain ⟨name', hname', hsuffix'⟩ := hb
  rw [hsuffix, hsuffix']
  -- with one label the owners differ, and so do the names of their mappers
  have hsame : ∀ label : Label, label.kind = .mapper → a.label = label → b.label = label →
      name ++ a.label.suffix ≠ name' ++ b.label.suffix := by
    intro label hkind halabel hblabel heq
    rw [halabel, hkind] at hname
    rw [hblabel, hkind] at hname'
    rw [halabel, hblabel] at heq hne
    have hclaims := Scope.name_ne_of_nodup h.distinct (mapper_of_gives h hname)
      (mapper_of_gives h hname') fun howner => hne (by rw [howner])
    exact hclaims (String.append_left_inj _ |>.mp heq)
  rcases hasked with hlabel | hlabel <;> rcases hasked' with hlabel' | hlabel'
  · exact hsame _ rfl hlabel hlabel'
  · rw [hlabel, hlabel']
    exact onResponse_ne_onEntity name name'
  · rw [hlabel, hlabel']
    exact (onResponse_ne_onEntity name' name).symm
  · exact hsame _ rfl hlabel hlabel'

/-! ### Runs -/

def Allocated (page : Page) (owner : Owner) : Prop :=
  ∃ stem, (page.registry owner.1).stem? owner.2 = some stem

/-- Asks for the extensions of each owner. -/
def askAll (page : Page) (owners : List Owner) : List Answer × Page :=
  page.calls (owners.map fun owner => (owner.1, .extensionNames owner.2))

theorem Step.allocated (h : Step page answers page') {owner : Owner} (howner : page.Allocated owner) :
    page'.Allocated owner := by
  obtain ⟨stem, hstem⟩ := howner
  exact ⟨stem, (h.grows owner.1).registry.stem? hstem⟩

theorem questions_extensionNames {owner : Owner} (howner : page.Allocated owner) :
    (page.call owner.1 (.extensionNames owner.2)).1.map (fun a => (a.owner, a.label)) =
      [(owner, .onResponse), (owner, .onEntity)] := by
  obtain ⟨stem, hstem⟩ := howner
  rw [call_extensionNames]
  simp [call, ofSession, Session.call, Registry.lookup, session, hstem, Answer.extensions]

theorem questions_askAll (h : page.Sound) {owners : List Owner}
    (hall : ∀ owner ∈ owners, page.Allocated owner) :
    (page.askAll owners).1.map (fun a => (a.owner, a.label)) =
      owners.flatMap fun owner => [(owner, .onResponse), (owner, .onEntity)] := by
  induction owners generalizing page with
  | nil => rfl
  | cons owner owners ih =>
      obtain ⟨howner, hrest⟩ := List.forall_mem_cons.mp hall
      have hfirst := step_call h owner.1 (.extensionNames owner.2)
      have hmore := ih hfirst.sound fun other hother => hfirst.allocated (hrest other hother)
      rw [List.flatMap_cons, ← questions_extensionNames howner, ← hmore, ← List.map_append]
      rfl

theorem nodup_questions {owners : List Owner} (h : owners.Nodup) :
    (owners.flatMap fun owner => [(owner, Label.onResponse), (owner, Label.onEntity)]).Nodup := by
  refine List.nodup_flatMap.mpr ⟨by simp, h.imp fun {owner other} hne => ?_⟩
  simp [List.disjoint_left, hne]

theorem nodup_askAll (h : page.Sound) {owners : List Owner} (howners : owners.Nodup)
    (hall : ∀ owner ∈ owners, page.Allocated owner) :
    ((page.askAll owners).1.map Answer.name).Nodup := by
  have hquestions := questions_askAll h hall
  have hstep : Step page (page.askAll owners).1 (page.askAll owners).2 := step_calls h _
  have hextension : ∀ a ∈ (page.askAll owners).1, a.label.IsExtension := by
    intro a ha
    have hmem := List.mem_map_of_mem (f := fun a : Answer => (a.owner, a.label)) ha
    rw [hquestions] at hmem
    obtain ⟨owner, -, hpair⟩ := List.mem_flatMap.mp hmem
    rcases List.mem_pair.mp hpair with heq | heq
    · exact .inl (congrArg Prod.snd heq)
    · exact .inr (congrArg Prod.snd heq)
  have hpairs : (page.askAll owners).1.Pairwise fun a b => (a.owner, a.label) ≠ (b.owner, b.label) :=
    List.pairwise_map.mp (hquestions ▸ nodup_questions howners)
  -- all names are compared on the last page, where each still belongs to its question
  refine List.pairwise_map.mpr (hpairs.imp_of_mem fun {a b} ha hb hne => ?_)
  exact (hstep.gives a ha).extension_ne hstep.sound (hstep.gives b hb) (hextension a ha)
    (hextension b hb) hne

/-- Whatever is asked of the APIs of a page, in any order: the extensions of all allocated paths have
different names; the name kept for an API as a whole goes to the root of that API and to no other path;
and an answer that was given once is given again, at any later time. -/
theorem names_of_run (apis : List String) (reserved : String → List String)
    (requests : List (String × Request)) :
    let run := (fresh apis reserved).calls requests
    (∀ owners : List Owner, owners.Nodup → (∀ owner ∈ owners, run.2.Allocated owner) →
      (run.2.askAll owners).1.map (fun a => (a.owner, a.label)) =
          owners.flatMap (fun owner => [(owner, .onResponse), (owner, .onEntity)]) ∧
        ((run.2.askAll owners).1.map Answer.name).Nodup) ∧
      (∀ a ∈ run.1, a.label = .artifact .mapper → ∀ api ∈ apis,
        ∃ root, (Scope.ofApis apis).claims.lookup (api, []) = some root ∧
          (a.name = root ↔ a.owner = (api, []))) ∧
      ∀ a ∈ run.1, (∀ later, a ∈ ((run.2.calls later).2.call a.owner.1 a.request).1) ∧
        ∀ b ∈ run.1, a.owner = b.owner → a.label = b.label → a.name = b.name := by
  intro run
  have hrun : Step (fresh apis reserved) run.1 run.2 :=
    step_calls (sound_fresh apis reserved) requests
  refine ⟨fun owners howners hall => ?_, fun a ha hlabel api hapi => ?_, fun a ha => ⟨?_, ?_⟩⟩
  · exact ⟨questions_askAll hrun.sound hall, nodup_askAll hrun.sound howners hall⟩
  · obtain ⟨root, hroot⟩ := Scope.lookup_ofApis hapi
    have hkept : run.2.scope.claims.lookup (api, []) = some root :=
      (hrun.grows api).scope.lookup hroot
    obtain ⟨name, hname, hsuffix⟩ := hrun.gives a ha
    rw [hlabel, Label.suffix, String.append_empty] at hsuffix
    rw [hlabel] at hname
    have hclaim : run.2.scope.claims.lookup a.owner = some a.name :=
      hsuffix ▸ mapper_of_gives hrun.sound hname
    refine ⟨root, hroot, fun heq => ?_, fun howner => ?_⟩
    · by_contra hne
      exact Scope.name_ne_of_nodup hrun.sound.distinct hclaim hkept hne heq
    · rw [howner, hkept] at hclaim
      exact (Option.some.inj hclaim).symm
  · intro later
    exact ((step_calls hrun.sound later).kept (hrun.gives a ha)).answered
  · intro b hb howner hlabel
    exact (hrun.gives a ha).name_eq (hrun.gives b hb) howner hlabel

end Page
end DartScaffold.ClassName
