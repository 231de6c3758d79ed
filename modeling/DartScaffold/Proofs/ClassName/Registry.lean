import DartScaffold.ClassName.Registry
import DartScaffold.Proofs.Dart.Identifier
import DartScaffold.Proofs.Text.Numbered
import Mathlib.Data.List.Nodup

/-!
The stems of one API. A nested stem is taken only if it is free, and one is always found, since a name
stands in the way of one number at most. So the names that the stems render stay distinct for every
artifact, and those of nested paths stay clear of the reserved ones.
-/

namespace DartScaffold.ClassName

open Dart (IsTypeName)

/-! ### Stems -/

namespace Stem

def text : Stem → String
  | root text => text
  | bare text => text
  | suffixed text => text

theorem isTypeName_render {api : String} {stem : Stem} (hapi : IsTypeName api)
    (hstem : IsTypeName stem.text) (kind : Artifact) : IsTypeName (stem.render api kind) := by
  have hsuffix : ∀ c ∈ kind.suffix.toList, c.isAlphanum = true :=
    List.all_eq_true.mp (by cases kind <;> decide)
  have hextra : ∀ c ∈ "Extra".toList, c.isAlphanum = true := List.all_eq_true.mp (by decide)
  cases stem with
  | root text =>
      cases kind with
      | mapper => exact hapi
      | _ => exact hstem.append hsuffix
  | bare text =>
      cases kind with
      | mapper => exact hapi.append hstem.2
      | extra => exact hstem.append hextra
      | _ => exact hstem
  | suffixed text =>
      cases kind with
      | mapper => exact hapi.append hstem.2
      | _ => exact hstem.append hsuffix

theorem render_extra (api : String) (stem : Stem) :
    stem.render api .extra = stem.text ++ "Extra" := by
  cases stem <;> rfl

theorem bare_of_render {api : String} {kind : Artifact} {a b : String}
    (h : (bare a).render api kind = (bare b).render api kind) : a = b := by
  cases kind <;> simpa [render] using h

end Stem

namespace Registry

theorem isFree_iff {r : Registry} {stem : Stem} :
    r.isFree stem = true ↔
      ∀ kind, r.render stem kind ∉ r.reserved ∧ r.render stem kind ∉ r.taken kind := by
  rw [isFree, List.all_eq_true]
  constructor
  · intro h kind
    simpa using h kind (Artifact.mem_all kind)
  · intro h kind _
    simpa using h kind

/-! ### Nested stems -/

/-- The names in the way of a new stem, each with the artifact that it is in the way of. -/
def obstacles (r : Registry) : List (Artifact × String) :=
  Artifact.all.flatMap fun kind => (r.reserved ++ r.taken kind).map fun name => (kind, name)

theorem length_obstacles (r : Registry) : r.obstacles.length = r.numberBound := by
  simp [obstacles, numberBound, taken, Artifact.all]
  omega

theorem isFree_of_obstacles {r : Registry} {stem : Stem}
    (h : ∀ obstacle ∈ r.obstacles, r.render stem obstacle.1 ≠ obstacle.2) :
    r.isFree stem = true := by
  rw [isFree_iff]
  intro kind
  have hclear : ∀ name ∈ r.reserved ++ r.taken kind, r.render stem kind ≠ name := by
    intro name hname
    refine h (kind, name) (List.mem_flatMap.mpr ⟨kind, Artifact.mem_all kind, ?_⟩)
    exact List.mem_map_of_mem hname
  exact ⟨fun hmem => hclear _ (List.mem_append_left _ hmem) rfl,
    fun hmem => hclear _ (List.mem_append_right _ hmem) rfl⟩

theorem isFree_numberedStem (r : Registry) (base : String) :
    r.isFree (r.numberedStem base) = true := by
  -- for one artifact, different numbers give different names
  have honce : ∀ (obstacle : Artifact × String) (m n : Nat),
      r.render (.bare (Text.numbered base m)) obstacle.1 = obstacle.2 →
      r.render (.bare (Text.numbered base n)) obstacle.1 = obstacle.2 → m = n := by
    intro obstacle m n hm hn
    exact Text.numbered_inj (Stem.bare_of_render (hm.trans hn.symm))
  have hclear : ∀ n, 2 ≤ n → (∀ obstacle ∈ r.obstacles,
      r.render (.bare (Text.numbered base n)) obstacle.1 ≠ obstacle.2) →
      r.isFree (.bare (Text.numbered base n)) = true := fun _ _ => isFree_of_obstacles
  have hfree := Text.free_firstNumber honce r.obstacles hclear
  rwa [length_obstacles] at hfree

theorem isFree_nestedStem (r : Registry) (path : Path) (name : String) :
    r.isFree (r.nestedStem path name) = true := by
  rw [nestedStem]
  cases hfound : (r.candidates path (Dart.classStem name)).find? r.isFree with
  | none => exact r.isFree_numberedStem _
  | some stem => exact List.find?_some hfound

/-! ### Legal stems -/

theorem isTypeName_of_mem_chain {names : List String} {inner c : String}
    (hnames : ∀ name ∈ names, IsTypeName name) (hinner : ∀ d ∈ inner.toList, d.isAlphanum = true)
    (h : c ∈ chain names inner) : IsTypeName c := by
  induction names generalizing inner with
  | nil => simp [chain] at h
  | cons name names ih =>
      obtain ⟨hname, hrest⟩ := List.forall_mem_cons.mp hnames
      have hjoined := hname.append hinner
      rcases List.mem_cons.mp h with rfl | h
      · exact hjoined
      · exact ih hrest hjoined.2 h

theorem isTypeName_of_mem_enclosing {path : Path} {name : String} (h : name ∈ enclosing path) :
    IsTypeName name := by
  rw [enclosing, List.mem_reverse, List.mem_map] at h
  obtain ⟨field, -, rfl⟩ := h
  exact Dart.isTypeName_classStem field

theorem isTypeName_greek : ∀ letter ∈ greekLetters, IsTypeName letter := by
  decide +kernel

theorem isTypeName_of_mem_candidates {r : Registry} {path : Path} {base : String} {stem : Stem}
    (hbase : IsTypeName base) (h : stem ∈ r.candidates path base) : IsTypeName stem.text := by
  have hchain : ∀ c ∈ chain (enclosing path) "", IsTypeName c := fun c =>
    isTypeName_of_mem_chain (fun _ => isTypeName_of_mem_enclosing) (by simp)
  have hwhole : ∀ d ∈ ((chain (enclosing path) "").getLast?.getD "").toList,
      d.isAlphanum = true := by
    cases hlast : (chain (enclosing path) "").getLast? with
    | none => simp
    | some c => exact (hchain c (List.mem_of_getLast? hlast)).2
  simp only [candidates, List.mem_append, List.mem_map, List.mem_singleton] at h
  rcases h with (((rfl | ⟨c, hc, rfl⟩) | rfl) | rfl) | ⟨letter, hletter, rfl⟩
  · exact hbase
  · exact (hchain c hc).append hbase.2
  · exact ((Dart.isTypeName_classStem r.api).append hwhole).append hbase.2
  · exact hbase
  · exact (isTypeName_greek letter hletter).append hbase.2

theorem isTypeName_nestedStem (r : Registry) (path : Path) (name : String) :
    IsTypeName (r.nestedStem path name).text := by
  have hbase := Dart.isTypeName_classStem name
  rw [nestedStem]
  cases hfound : (r.candidates path (Dart.classStem name)).find? r.isFree with
  | some stem => exact isTypeName_of_mem_candidates hbase (List.mem_of_find?_eq_some hfound)
  | none =>
      refine hbase.append fun c hc => ?_
      have hdigit := Text.isDigit_of_mem_toString hc
      simp [Char.isAlphanum, hdigit]

/-! ### Allocation -/

/-- No two paths share a name, nested ones have no reserved name, and all names are legal. -/
structure Safe (r : Registry) : Prop where
  paths : (r.stems.map Prod.fst).Nodup
  distinct : ∀ kind, (r.taken kind).Nodup
  fresh : ∀ path stem, (path, stem) ∈ r.stems → path ≠ [] →
    ∀ kind, r.render stem kind ∉ r.reserved
  legal : ∀ path stem, (path, stem) ∈ r.stems → IsTypeName stem.text

theorem safe_empty (api : String) (reserved : List String) : Safe { api, reserved } where
  paths := List.nodup_nil
  distinct _ := List.nodup_nil
  fresh := by simp
  legal := by simp

theorem mem_of_stem? {r : Registry} {path : Path} {stem : Stem} (h : r.stem? path = some stem) :
    (path, stem) ∈ r.stems := by
  obtain ⟨pre, post, hsplit, -⟩ := List.lookup_eq_some_iff.mp h
  rw [hsplit]
  simp

theorem not_mem_of_stem?_eq_none {r : Registry} {path : Path} (h : r.stem? path = none) :
    path ∉ r.stems.map Prod.fst := by
  rintro hmem
  obtain ⟨⟨p, stem⟩, hin, rfl⟩ := List.mem_map.mp hmem
  have hne := List.lookup_eq_none_iff.mp h (p, stem) hin
  simp at hne

/-- A stem is found under its path if no other has that path. -/
theorem stem?_of_mem {r : Registry} (hpaths : (r.stems.map Prod.fst).Nodup) {path : Path}
    {stem : Stem} (hmem : (path, stem) ∈ r.stems) : r.stem? path = some stem := by
  cases hstem : r.stem? path with
  | none => exact absurd (List.mem_map_of_mem hmem) (not_mem_of_stem?_eq_none hstem)
  | some other =>
      have hsame := List.inj_on_of_nodup_map hpaths (mem_of_stem? hstem) hmem rfl
      exact congrArg (some ·.2) hsame

theorem nodup_paths_add {r : Registry} (hpaths : (r.stems.map Prod.fst).Nodup) {path : Path}
    (hpath : r.stem? path = none) (stem : Stem) :
    ((r.stems ++ [(path, stem)]).map Prod.fst).Nodup := by
  rw [List.map_append, List.map_singleton, ← List.concat_eq_append]
  exact List.Nodup.concat (not_mem_of_stem?_eq_none hpath) hpaths

theorem nodup_paths_ensure {r : Registry} (hpaths : (r.stems.map Prod.fst).Nodup) (path : Path)
    (name : String) (isRoot : Bool) : ((r.ensure path name isRoot).stems.map Prod.fst).Nodup := by
  rw [ensure]
  split
  · exact hpaths
  · rename_i hnone
    exact nodup_paths_add hpaths hnone _

theorem Safe.stem?_of_mem {r : Registry} (h : r.Safe) {path : Path} {stem : Stem}
    (hmem : (path, stem) ∈ r.stems) : r.stem? path = some stem :=
  Registry.stem?_of_mem h.paths hmem

section Add

variable {r : Registry} {path : Path} {stem : Stem}

theorem Safe.add (h : r.Safe) (hpath : r.stem? path = none) (hlegal : IsTypeName stem.text)
    (htaken : ∀ kind, r.render stem kind ∉ r.taken kind)
    (hfresh : path ≠ [] → ∀ kind, r.render stem kind ∉ r.reserved) :
    Safe { r with stems := r.stems ++ [(path, stem)] } where
  paths := nodup_paths_add h.paths hpath stem
  distinct kind := by
    have hnodup := List.Nodup.concat (htaken kind) (h.distinct kind)
    rw [List.concat_eq_append] at hnodup
    rw [taken, List.map_append]
    exact hnodup
  fresh := by
    intro p s hmem hne
    rcases List.mem_append.mp hmem with hmem | hmem
    · exact h.fresh p s hmem hne
    · obtain ⟨rfl, rfl⟩ : p = path ∧ s = stem := by simpa using hmem
      exact hfresh hne
  legal := by
    intro p s hmem
    rcases List.mem_append.mp hmem with hmem | hmem
    · exact h.legal p s hmem
    · obtain ⟨rfl, rfl⟩ : p = path ∧ s = stem := by simpa using hmem
      exact hlegal

/-- `r'` has the stems of `r` and maybe more. -/
structure Extends (r r' : Registry) : Prop where
  api : r'.api = r.api
  reserved : r'.reserved = r.reserved
  stems : r.stems <+: r'.stems

theorem Extends.refl (r : Registry) : r.Extends r :=
  ⟨rfl, rfl, List.prefix_refl _⟩

theorem Extends.trans {r r' r'' : Registry} (h : r.Extends r') (h' : r'.Extends r'') :
    r.Extends r'' :=
  ⟨h'.api.trans h.api, h'.reserved.trans h.reserved, h.stems.trans h'.stems⟩

theorem Extends.stem? {r' : Registry} (h : r.Extends r') (hstem : r.stem? path = some stem) :
    r'.stem? path = some stem := by
  obtain ⟨more, hmore⟩ := h.stems
  rw [Registry.stem?] at hstem
  rw [Registry.stem?, ← hmore, List.lookup_append, hstem]
  rfl

theorem Extends.render {r' : Registry} (h : r.Extends r') (stem : Stem) (kind : Artifact) :
    r'.render stem kind = r.render stem kind := by
  simp [Registry.render, apiStem, h.api]

theorem extends_ensure (r : Registry) (path : Path) (name : String) (isRoot : Bool) :
    r.Extends (r.ensure path name isRoot) := by
  rw [ensure]
  split
  · exact Extends.refl r
  · exact ⟨rfl, rfl, List.prefix_append _ _⟩

theorem stem?_ensure (r : Registry) (path : Path) (name : String) (isRoot : Bool) :
    ∃ stem, (r.ensure path name isRoot).stem? path = some stem := by
  rw [ensure]
  split
  · rename_i stem hstem
    exact ⟨stem, hstem⟩
  · rename_i hnone
    rw [stem?] at hnone
    simp [stem?, List.lookup_append, hnone]

theorem Safe.ensure (h : r.Safe) (path : Path) (name : String) :
    (r.ensure path name false).Safe := by
  rw [Registry.ensure]
  split
  · exact h
  · rename_i hnone
    have hfree := isFree_iff.mp (isFree_nestedStem r path name)
    exact h.add hnone (isTypeName_nestedStem r path name) (fun kind => (hfree kind).2)
      fun _ kind => (hfree kind).1

/-- The root is not checked, but it comes first. -/
theorem Safe.ensure_root (h : r.Safe) (hfirst : r.stems = []) (name : String) :
    (r.ensure [] name true).Safe := by
  have hnone : r.stem? [] = none := by simp [stem?, hfirst]
  rw [Registry.ensure, hnone]
  refine h.add hnone (Dart.isTypeName_classStem name) (fun kind => ?_) fun hne => absurd rfl hne
  simp [taken, hfirst]

/-- Different paths have different names. -/
theorem Safe.render_ne (h : r.Safe) {other : Path} {stem' : Stem} (hstem : r.stem? path = some stem)
    (hstem' : r.stem? other = some stem') (hne : path ≠ other) (kind : Artifact) :
    r.render stem kind ≠ r.render stem' kind := by
  intro heq
  have hsame := List.inj_on_of_nodup_map (h.distinct kind) (mem_of_stem? hstem)
    (mem_of_stem? hstem') heq
  exact hne (congrArg Prod.fst hsame)

end Add

end Registry

end DartScaffold.ClassName
