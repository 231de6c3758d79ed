import DartScaffold.Proofs.ClassName.Registry
import DartScaffold.Proofs.ClassName.Scope
import DartScaffold.Proofs.Shape.Nodes

/-!
Everything that is asked of the class names of one API. A session is a registry with the mapper names
of its page; calls change it and give answers. `Step` says what one call does: it keeps the session
safe, takes nothing back, and what it answers holds from then on. So the answers of any run agree with
its last session, where different paths have different names.
-/

namespace DartScaffold.ClassName

open Dart (IsTypeName)

structure Session where
  registry : Registry
  scope : Scope

structure Answer where
  path : Path
  kind : Artifact
  name : String

/-- A call that does not allocate a root. -/
inductive Call where
  | allocate (path : Path) (name : String) (kind : Artifact)
  | lookup (path : Path) (kind : Artifact)
  | names (kind : Artifact)

namespace Session

/-- Before any call. -/
def fresh (api : String) (reserved apis : List String) : Session where
  registry := { api, reserved }
  scope := .ofApis apis

def allocate (σ : Session) (path : Path) (name : String) (kind : Artifact) (isRoot : Bool) :
    List Answer × Session :=
  let (name, registry, scope) := σ.registry.allocate σ.scope path name kind isRoot
  ([⟨path, kind, name⟩], ⟨registry, scope⟩)

def call (σ : Session) : Call → List Answer × Session
  | .allocate path name kind => σ.allocate path name kind false
  | .lookup path kind =>
    let (found, scope) := σ.registry.lookup σ.scope path kind
    (found.toList.map fun name => ⟨path, kind, name⟩, ⟨σ.registry, scope⟩)
  | .names kind =>
    let (found, scope) := σ.registry.names σ.scope kind
    (found.map fun entry => ⟨entry.1, kind, entry.2⟩, ⟨σ.registry, scope⟩)

def calls (σ : Session) : List Call → List Answer × Session
  | [] => ([], σ)
  | call :: rest =>
    let (answers, σ) := σ.call call
    let (more, σ) := σ.calls rest
    (answers ++ more, σ)

/-- Allocates the objects of a shape, the whole of it as the root. -/
def allocateTree (σ : Session) (kind : Artifact) : List (Path × Fields) → List Answer × Session
  | [] => ([], σ)
  | (path, _) :: rest =>
    let (answers, σ) := σ.allocate path (path.getLast?.getD σ.registry.api) kind path.isEmpty
    let (more, σ) := σ.allocateTree kind rest
    (answers ++ more, σ)

/-- An answer that another call would give again. -/
def Gives (σ : Session) (a : Answer) : Prop :=
  ∃ stem, σ.registry.stem? a.path = some stem ∧
    if a.kind = .mapper then σ.scope.claims.lookup (σ.registry.api, a.path) = some a.name
    else a.name = σ.registry.render stem a.kind

structure Safe (σ : Session) : Prop where
  registry : σ.registry.Safe
  scope : σ.scope.Safe

structure Extends (σ τ : Session) : Prop where
  registry : σ.registry.Extends τ.registry
  scope : σ.scope.Extends τ.scope

/-- What calls do to a session. -/
structure Step (σ : Session) (answers : List Answer) (τ : Session) : Prop where
  safe : τ.Safe
  grows : σ.Extends τ
  gives : ∀ a ∈ answers, τ.Gives a

variable {σ τ υ : Session} {answers more : List Answer}

theorem Extends.gives (h : σ.Extends τ) {a : Answer} (ha : σ.Gives a) : τ.Gives a := by
  obtain ⟨stem, hstem, hname⟩ := ha
  refine ⟨stem, h.registry.stem? hstem, ?_⟩
  split
  · rename_i hkind
    rw [if_pos hkind] at hname
    rw [h.registry.api]
    exact h.scope.lookup hname
  · rename_i hkind
    rw [if_neg hkind] at hname
    rw [h.registry.render, hname]

theorem Step.refl (h : σ.Safe) : Step σ [] σ :=
  ⟨h, ⟨.refl _, .refl _⟩, by simp⟩

theorem Step.trans (h : Step σ answers τ) (h' : Step τ more υ) : Step σ (answers ++ more) υ where
  safe := h'.safe
  grows := ⟨h.grows.registry.trans h'.grows.registry, h.grows.scope.trans h'.grows.scope⟩
  gives := by
    intro a ha
    rcases List.mem_append.mp ha with ha | ha
    · exact h'.grows.gives (h.gives a ha)
    · exact h'.gives a ha

/-! ### One call -/

/-- Only a mapper name goes through the scope of the page. -/
theorem publicName_of_ne_mapper (r : Registry) (scope : Scope) (path : Path) (stem : Stem)
    {kind : Artifact} (hkind : kind ≠ .mapper) :
    r.publicName scope path stem kind = (r.render stem kind, scope) := by
  cases kind with
  | mapper => contradiction
  | _ => rfl

theorem extends_publicName (σ : Session) (path : Path) (stem : Stem) (kind : Artifact) :
    σ.Extends ⟨σ.registry, (σ.registry.publicName σ.scope path stem kind).2⟩ := by
  refine ⟨.refl _, ?_⟩
  by_cases hkind : kind = .mapper
  · subst hkind
    exact Scope.extends_claim _ _ _
  · rw [publicName_of_ne_mapper _ _ _ _ hkind]
    exact .refl _

theorem gives_publicName {path : Path} {stem : Stem} (hstem : σ.registry.stem? path = some stem)
    (kind : Artifact) :
    Gives ⟨σ.registry, (σ.registry.publicName σ.scope path stem kind).2⟩
      ⟨path, kind, (σ.registry.publicName σ.scope path stem kind).1⟩ := by
  refine ⟨stem, hstem, ?_⟩
  by_cases hkind : kind = .mapper
  · subst hkind
    rw [if_pos rfl]
    exact Scope.lookup_claim _ _ _
  · rw [if_neg hkind, publicName_of_ne_mapper _ _ _ _ hkind]

theorem step_publicName (h : σ.Safe) {path : Path} {stem : Stem}
    (hstem : σ.registry.stem? path = some stem) (kind : Artifact) :
    Step σ [⟨path, kind, (σ.registry.publicName σ.scope path stem kind).1⟩]
      ⟨σ.registry, (σ.registry.publicName σ.scope path stem kind).2⟩ := by
  refine ⟨⟨h.registry, ?_⟩, extends_publicName σ path stem kind, ?_⟩
  · by_cases hkind : kind = .mapper
    · subst hkind
      have hlegal := h.registry.legal path stem (Registry.mem_of_stem? hstem)
      have hapi := Dart.isTypeName_classStem σ.registry.api
      exact h.scope.claim _ (Stem.isTypeName_render hapi hlegal .mapper)
    · rw [publicName_of_ne_mapper _ _ _ _ hkind]
      exact h.scope
  · intro a ha
    obtain rfl := List.mem_singleton.mp ha
    exact gives_publicName hstem kind

theorem step_lookup (h : σ.Safe) (path : Path) (kind : Artifact) :
    Step σ (σ.call (.lookup path kind)).1 (σ.call (.lookup path kind)).2 := by
  cases hstem : σ.registry.stem? path with
  | none =>
      simp only [call, Registry.lookup, hstem]
      exact .refl h
  | some stem =>
      simp only [call, Registry.lookup, hstem]
      exact step_publicName h hstem kind

/-- A list of names is made of one name after the other. -/
theorem step_names_aux {r : Registry} (kind : Artifact) {entries : List (Path × Stem)}
    (hentries : ∀ path stem, (path, stem) ∈ entries → r.stem? path = some stem) {scope : Scope}
    (h : Safe ⟨r, scope⟩) (found : List (Path × String)) :
    ∃ named scope', entries.foldl
        (fun (found, scope) (path, stem) =>
          let (name, scope) := r.publicName scope path stem kind
          (found ++ [(path, name)], scope)) (found, scope) = (found ++ named, scope') ∧
      named.map Prod.fst = entries.map Prod.fst ∧
      Step ⟨r, scope⟩ (named.map fun entry => ⟨entry.1, kind, entry.2⟩) ⟨r, scope'⟩ := by
  induction entries generalizing scope found with
  | nil => exact ⟨[], scope, by simp, rfl, .refl h⟩
  | cons entry entries ih =>
      obtain ⟨path, stem⟩ := entry
      have hfirst := step_publicName h (hentries path stem List.mem_cons_self) kind
      obtain ⟨named, scope', hfold, hpaths, hrest⟩ :=
        ih (fun p s hmem => hentries p s (List.mem_cons_of_mem _ hmem)) hfirst.safe
          (found ++ [(path, (r.publicName scope path stem kind).1)])
      refine ⟨(path, (r.publicName scope path stem kind).1) :: named, scope', ?_, ?_, ?_⟩
      · rw [List.foldl_cons, hfold]
        simp
      · rw [List.map_cons, List.map_cons, hpaths]
      · exact hfirst.trans hrest

theorem step_names (h : σ.Safe) (kind : Artifact) :
    Step σ (σ.call (.names kind)).1 (σ.call (.names kind)).2 ∧
      (σ.call (.names kind)).1.map Answer.path = σ.registry.stems.map Prod.fst := by
  obtain ⟨named, scope', hfold, hpaths, hstep⟩ :=
    step_names_aux kind (fun path stem => h.registry.stem?_of_mem) h []
  rw [List.nil_append] at hfold
  have hcall : σ.call (.names kind) =
      (named.map fun entry => ⟨entry.1, kind, entry.2⟩, ⟨σ.registry, scope'⟩) := by
    rw [call, Registry.names, hfold]
  rw [hcall]
  exact ⟨hstep, by rw [← hpaths, List.map_map]; rfl⟩

theorem step_allocate (h : σ.Safe) {path : Path} {name : String} {isRoot : Bool}
    (hensure : (σ.registry.ensure path name isRoot).Safe) (kind : Artifact) :
    Step σ (σ.allocate path name kind isRoot).1 (σ.allocate path name kind isRoot).2 := by
  obtain ⟨stem, hstem⟩ := Registry.stem?_ensure σ.registry path name isRoot
  have hgrows := Registry.extends_ensure σ.registry path name isRoot
  have hstart : Step σ [] ⟨σ.registry.ensure path name isRoot, σ.scope⟩ :=
    ⟨⟨hensure, h.scope⟩, ⟨hgrows, .refl _⟩, by simp⟩
  have hname := hstart.trans (step_publicName hstart.safe hstem kind)
  simpa [allocate, Registry.allocate, Registry.lookup, hstem] using hname

theorem step_call (h : σ.Safe) (call : Call) : Step σ (σ.call call).1 (σ.call call).2 := by
  cases call with
  | allocate path name kind => exact step_allocate h (h.registry.ensure path name) kind
  | lookup path kind => exact step_lookup h path kind
  | names kind => exact (step_names h kind).1

theorem step_calls (h : σ.Safe) (calls : List Call) :
    Step σ (σ.calls calls).1 (σ.calls calls).2 := by
  induction calls generalizing σ with
  | nil => exact .refl h
  | cons call calls ih =>
      have hfirst := step_call h call
      exact hfirst.trans (ih hfirst.safe)

/-! ### The tree of one sample -/

/-- Nodes inside an object have paths that are not empty. -/
theorem step_nested {nodes : List (Path × Fields)} (hnodes : ∀ node ∈ nodes, node.1 ≠ [])
    (h : σ.Safe) (kind : Artifact) :
    Step σ (σ.allocateTree kind nodes).1 (σ.allocateTree kind nodes).2 := by
  induction nodes generalizing σ with
  | nil => exact .refl h
  | cons node nodes ih =>
      obtain ⟨path, fields⟩ := node
      obtain ⟨hpath, hrest⟩ := List.forall_mem_cons.mp hnodes
      have hnested : path.isEmpty = false := by simpa using hpath
      have hfirst := step_allocate h
        (h.registry.ensure path (path.getLast?.getD σ.registry.api)) kind
      rw [allocateTree, hnested]
      exact hfirst.trans (ih hrest hfirst.safe)

theorem path_allocateTree (σ : Session) (kind : Artifact) (nodes : List (Path × Fields)) :
    (σ.allocateTree kind nodes).1.map Answer.path = nodes.map Prod.fst := by
  induction nodes generalizing σ with
  | nil => rfl
  | cons node nodes ih => exact congrArg (node.1 :: ·) (ih _)

theorem safe_fresh (api : String) (reserved apis : List String) : (fresh api reserved apis).Safe :=
  ⟨Registry.safe_empty api reserved, Scope.safe_ofApis apis⟩

end Session

/-! ### Runs -/

namespace Session

/-- The session after the tree of an object, and its answers so far. -/
def afterTree (api : String) (reserved apis : List String) (entries : List (String × Json))
    (kind : Artifact) : List Answer × Session :=
  (fresh api reserved apis).allocateTree kind (Shape.infer (.obj entries)).nodes

variable {σ : Session} {a b : Answer}

theorem step_afterTree (api : String) (reserved apis : List String)
    (entries : List (String × Json)) (kind : Artifact) :
    Step (fresh api reserved apis) (afterTree api reserved apis entries kind).1
      (afterTree api reserved apis entries kind).2 := by
  have hsafe := safe_fresh api reserved apis
  rw [afterTree, Shape.infer, Shape.nodes, Shape.nodesAt]
  -- the root comes first, so nothing can be in its way
  have hroot := step_allocate hsafe (hsafe.registry.ensure_root rfl api) kind
  refine hroot.trans (step_nested (fun node hnode => ?_) hroot.safe kind)
  exact (Shape.prefix_of_mem_fieldNodes [] _ node hnode).2

theorem Gives.name_ne (hσ : σ.Safe) (ha : σ.Gives a) (hb : σ.Gives b) (hkind : a.kind = b.kind)
    (hpath : a.path ≠ b.path) : a.name ≠ b.name := by
  obtain ⟨stem, hstem, hname⟩ := ha
  obtain ⟨stem', hstem', hname'⟩ := hb
  rw [← hkind] at hname'
  by_cases hmapper : a.kind = .mapper
  · rw [if_pos hmapper] at hname hname'
    refine hσ.scope.name_ne hname hname' fun heq => hpath ?_
    exact congrArg Prod.snd heq
  · rw [if_neg hmapper] at hname hname'
    rw [hname, hname']
    exact hσ.registry.render_ne hstem hstem' hpath a.kind

theorem Gives.isTypeName (hσ : σ.Safe) (ha : σ.Gives a) : IsTypeName a.name := by
  obtain ⟨stem, hstem, hname⟩ := ha
  split at hname
  · exact hσ.scope.legal a.name (List.mem_map.mpr ⟨_, Scope.mem_of_lookup hname, rfl⟩)
  · rw [hname]
    exact Stem.isTypeName_render (Dart.isTypeName_classStem _)
      (hσ.registry.legal _ _ (Registry.mem_of_stem? hstem)) a.kind

theorem Gives.not_reserved (hσ : σ.Safe) (ha : σ.Gives a) (hpath : a.path ≠ [])
    (hkind : a.kind ≠ .mapper) : a.name ∉ σ.registry.reserved := by
  obtain ⟨stem, hstem, hname⟩ := ha
  rw [if_neg hkind] at hname
  rw [hname]
  exact hσ.registry.fresh _ _ (Registry.mem_of_stem? hstem) hpath a.kind

theorem Gives.extra (ha : σ.Gives a) (hkind : a.kind = .extra) :
    ∃ text, a.name = text ++ "Extra" := by
  obtain ⟨stem, -, hname⟩ := ha
  rw [hkind] at hname
  exact ⟨stem.text, hname.trans (Stem.render_extra _ stem)⟩

/-- The tree of an object names all of it, and from then on, whatever is called, different paths have
different names for each artifact; all names are legal, no nested class has a reserved name, and extra
classes are called so. -/
theorem answers_of_run (api : String) (reserved apis : List String)
    (entries : List (String × Json)) (kind : Artifact) (calls : List Call) :
    let nodes := (Shape.infer (.obj entries)).nodes
    let tree := afterTree api reserved apis entries kind
    let answers := tree.1 ++ (tree.2.calls calls).1
    tree.1.map Answer.path = nodes.map Prod.fst ∧
      (∀ other, ∀ node ∈ nodes,
        node.1 ∈ (tree.2.call (.names other)).1.map Answer.path) ∧
      (∀ a ∈ answers, ∀ b ∈ answers, a.kind = b.kind → a.path ≠ b.path → a.name ≠ b.name) ∧
      ∀ a ∈ answers, IsTypeName a.name ∧
        (a.path ≠ [] → a.kind ≠ .mapper → a.name ∉ reserved) ∧
        (a.kind = .extra → ∃ text, a.name = text ++ "Extra") := by
  intro nodes tree answers
  have htree : Step (fresh api reserved apis) tree.1 tree.2 :=
    step_afterTree api reserved apis entries kind
  have hpaths : tree.1.map Answer.path = nodes.map Prod.fst := path_allocateTree _ kind nodes
  have hrun : Step (fresh api reserved apis) answers (tree.2.calls calls).2 :=
    htree.trans (step_calls htree.safe calls)
  -- all answers are compared in the last session, where every one of them still holds
  have hreserved : (tree.2.calls calls).2.registry.reserved = reserved :=
    hrun.grows.registry.reserved
  refine ⟨hpaths, fun other node hnode => ?_, fun a ha b hb hkind hpath => ?_, fun a ha => ?_⟩
  · rw [(step_names htree.safe other).2]
    have hmem : node.1 ∈ tree.1.map Answer.path := hpaths ▸ List.mem_map_of_mem hnode
    obtain ⟨a, ha, hpath⟩ := List.mem_map.mp hmem
    obtain ⟨stem, hstem, -⟩ := htree.gives a ha
    rw [← hpath]
    exact List.mem_map_of_mem (f := Prod.fst) (Registry.mem_of_stem? hstem)
  · exact (hrun.gives a ha).name_ne hrun.safe (hrun.gives b hb) hkind hpath
  · have hgives := hrun.gives a ha
    refine ⟨hgives.isTypeName hrun.safe, fun hpath hkind => ?_, hgives.extra⟩
    exact hreserved ▸ hgives.not_reserved hrun.safe hpath hkind

end Session

end DartScaffold.ClassName
