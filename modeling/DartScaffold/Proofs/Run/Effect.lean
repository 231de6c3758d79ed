import DartScaffold.Proofs.Aggregate.OnDisk
import DartScaffold.Proofs.Run.Action

/-!
What actions leave at a place. A file that one action saves holds what this action gave it, whatever is
done elsewhere before and after; and what a block key sees of an aggregate changes only when the block
of this very key is put in.
-/

namespace DartScaffold.Run.Action

open Aggregate (BlockKey View viewAt CleanAt)
open Disk (Entry Frame Location SameFile WriteMode)

variable {mode : WriteMode} {places others : List Location} {d : Disk} {b b' : Bench} {a : Action}
  {as pre post : List Action} {l : Location}

/-! ### Where actions write -/

def place? : Action → Option Location
  | save place _ => some place
  | patch place _ => some place
  | _ => none

/-- The action writes to one of the places, or nowhere. -/
def Within (places : List Location) (a : Action) : Prop :=
  ∀ l, a.place? = some l → l ∈ places

theorem Within.mono (h : a.Within others) (hsub : others ⊆ places) : a.Within places :=
  fun l hl => hsub (h l hl)

theorem frame_perform (h : b.disk.Apart places) (ha : a.Within places) :
    Frame places b.disk (a.perform mode b).2.disk := by
  cases a with
  | save l content =>
      have hl := ha l rfl
      exact (Disk.frame_saveTwin (h.singleton hl) mode content).mono (by simpa using hl)
  | patch l f =>
      have hl := ha l rfl
      exact (Aggregate.frame_patch (h.singleton hl) mode f).mono (by simpa using hl)
  | claim scope => exact .refl _ _
  | call name => exact .refl _ _
  | fail failure => exact .refl _ _

theorem frame_performAll (mode : WriteMode) (hapart : d.Apart places)
    (has : ∀ a ∈ as, a.Within places) (hb : Frame places d b.disk) :
    Frame places d (performAll mode b as).2.disk := by
  refine performAll_keeps (P := fun b => Frame places d b.disk) ?_ hb
  intro a ha b hb
  exact hb.trans (frame_perform (hapart.frame hb) (has a ha))

theorem writesTo_perform (mode : WriteMode) (b : Bench) (ha : a.Within places) :
    Disk.WritesTo mode places b.disk (a.perform mode b).2.disk := by
  cases a with
  | save l content =>
      have hl := ha l rfl
      exact (Disk.writesTo_saveTwin b.disk mode l content).mono (by simpa using hl)
  | patch l f =>
      have hl := ha l rfl
      exact (Aggregate.writesTo_patch b.disk mode l f).mono (by simpa using hl)
  | claim scope => exact .refl _ _ _
  | call name => exact .refl _ _ _
  | fail failure => exact .refl _ _ _

theorem writesTo_performAll (mode : WriteMode) (b : Bench) (hplaces : b.disk.Untemporary places)
    (has : ∀ a ∈ as, a.Within places) :
    Disk.WritesTo mode places b.disk (performAll mode b as).2.disk := by
  refine performAll_keeps (P := fun b' => Disk.WritesTo mode places b.disk b'.disk) ?_ (.refl _ _ _)
  intro a ha b' hb'
  exact hb'.trans (writesTo_perform mode b' (has a ha)) hplaces

theorem performAll_append_eq_ok (h : performAll mode b (pre ++ post) = (.ok (), b')) :
    ∃ b₁, performAll mode b pre = (.ok (), b₁) ∧ performAll mode b₁ post = (.ok (), b') := by
  cases hpre : performAll mode b pre with
  | mk result b₁ =>
      cases result with
      | ok _ => exact ⟨b₁, rfl, (performAll_append_ok hpre).symm.trans h⟩
      | error failure =>
          rw [performAll_append_error hpre] at h
          exact absurd (congrArg Prod.fst h) (by simp)

theorem performAll_cons_eq_ok (h : performAll mode b (a :: as) = (.ok (), b')) :
    ∃ b₁, a.perform mode b = (.ok (), b₁) ∧ performAll mode b₁ as = (.ok (), b') := by
  rw [performAll] at h
  split at h
  · rename_i b₁ hstep
    exact ⟨b₁, hstep, h⟩
  · exact absurd (congrArg Prod.fst h) (by simp)

theorem ended_eq_ok {result : Except Failure Saved × Disk} (h : ended b result = (.ok (), b')) :
    ∃ saved, result = (.ok saved, b'.disk) ∧ b'.files = b.files ++ [saved] := by
  obtain ⟨outcome, disk⟩ := result
  cases outcome with
  | error failure => exact absurd (congrArg Prod.fst h) (by simp [ended, Except.map])
  | ok saved =>
      obtain rfl : { b with disk, files := b.files ++ [saved] } = b' := congrArg Prod.snd h
      exact ⟨saved, rfl, rfl⟩

/-- Each place that is written to is noted. -/
theorem files_perform (h : a.perform mode b = (.ok (), b')) :
    b'.files.map Saved.path = b.files.map Saved.path ++ a.place?.toList.map Location.toString := by
  cases a with
  | save place content =>
      obtain ⟨saved, hsave, hfiles⟩ := ended_eq_ok h
      simp [hfiles, Disk.path_of_saveTwin hsave, place?]
  | patch place f =>
      obtain ⟨saved, hpatch, hfiles⟩ := ended_eq_ok h
      simp [hfiles, Aggregate.path_of_patch hpatch, place?]
  | claim scope =>
      obtain rfl : { b with scope } = b' := congrArg Prod.snd h
      simp [place?]
  | call name =>
      obtain rfl : { b with name } = b' := congrArg Prod.snd h
      simp [place?]
  | fail failure => exact absurd (congrArg Prod.fst h) (by simp [perform])

theorem files_performAll (h : performAll mode b as = (.ok (), b')) :
    b'.files.map Saved.path =
      b.files.map Saved.path ++ (as.filterMap place?).map Location.toString := by
  induction as generalizing b with
  | nil =>
      obtain rfl : b = b' := congrArg Prod.snd h
      simp
  | cons a as ih =>
      obtain ⟨b₁, hstep, hrest⟩ := performAll_cons_eq_ok h
      rw [ih hrest, files_perform hstep, List.append_assoc, ← List.map_append]
      cases hplace : a.place? <;> simp [hplace]

/-- The action writes nowhere where a write to `l` lands. -/
def Elsewhere (d : Disk) (l : Location) (a : Action) : Prop :=
  ∀ place, a.place? = some place → ∀ key ∈ d.landings l, key ∉ d.landings place

theorem frame_place (h : b.disk.Apart places) (ha : a.Within places) :
    Frame a.place?.toList b.disk (a.perform mode b).2.disk :=
  frame_perform (h.mono fun place hplace => ha place (by simpa using hplace))
    fun place hplace => by simpa using hplace

theorem Elsewhere.not_mem {e : Disk} (h : a.Elsewhere d l) (hhome : e.home = d.home) :
    ∀ place ∈ a.place?.toList, e.absoluteKey l ∉ e.landings place := by
  intro place hplace
  rw [Disk.absoluteKey_of_home hhome, Disk.landings_of_home hhome]
  exact h place (by simpa using hplace) _ (Disk.absoluteKey_mem_landings d l)

/-! ### A file of its own -/

section Held

variable {content : Twin String} {entry : Option Entry} {e e' : Disk}

/-- What is at `l` on `e`, which `d` became. -/
structure Held (d : Disk) (l : Location) (entry : Option Entry) (e : Disk) : Prop where
  leads : e.Leads l
  entry : e.entry? (d.absoluteKey l) = entry

theorem held_self (hleads : d.Leads l) : Held d l (d.entry? (d.absoluteKey l)) d :=
  ⟨hleads, rfl⟩

theorem Held.frame (h : Held d l entry e) (hhome : e.home = d.home) (hapart : e.Apart places)
    (hl : l ∈ places) (hothers : others ⊆ places) (hframe : Frame others e e')
    (hnot : ∀ place ∈ others, e.absoluteKey l ∉ e.landings place) : Held d l entry e' := by
  refine ⟨(h.leads.sameFile hframe hnot).leads', ?_⟩
  rw [← h.entry, ← Disk.absoluteKey_of_home hhome]
  exact hapart.entry?_eq hothers hframe hl (Disk.absoluteKey_mem_landings e l) hnot

section Perform

variable (hapart : d.Apart places) (hl : l ∈ places) (hframe : Frame places d b.disk)

include hapart hl hframe

theorem Elsewhere.held (ha : a.Elsewhere d l) (hwithin : a.Within places)
    (h : Held d l entry b.disk) : Held d l entry (a.perform mode b).2.disk :=
  h.frame hframe.home (hapart.frame hframe) hl (fun place hplace => hwithin place (by simpa using hplace))
    (frame_place (hapart.frame hframe) hwithin) (ha.not_mem hframe.home)

/-- What many actions leave that all write elsewhere. -/
theorem held_performAll (mode : WriteMode) (has : ∀ a ∈ as, a.Elsewhere d l ∧ a.Within places)
    (h : Held d l entry b.disk) : Held d l entry (performAll mode b as).2.disk := by
  have hboth : Frame places d (performAll mode b as).2.disk ∧
      Held d l entry (performAll mode b as).2.disk := by
    refine performAll_keeps (P := fun b => Frame places d b.disk ∧ Held d l entry b.disk) ?_
      ⟨hframe, h⟩
    rintro a ha b ⟨hframe, hheld⟩
    obtain ⟨helsewhere, hwithin⟩ := has a ha
    exact ⟨hframe.trans (frame_perform (hapart.frame hframe) hwithin),
      helsewhere.held hapart hl hframe hwithin hheld⟩
  exact hboth.2

/-- What a file holds in the end that one of the actions saves. -/
theorem held_saved (hpre : ∀ a ∈ pre, a.Elsewhere d l ∧ a.Within places)
    (hpost : ∀ a ∈ post, a.Elsewhere d l ∧ a.Within places) (h : Held d l entry b.disk)
    (hrun : performAll mode b (pre ++ .save l content :: post) = (.ok (), b')) :
    Held d l (Disk.rewritten content.first entry) b'.disk := by
  obtain ⟨b₁, hrun₁, hrest⟩ := performAll_append_eq_ok hrun
  obtain ⟨b₂, hstep, hrun₂⟩ := performAll_cons_eq_ok hrest
  obtain ⟨saved, hsave, -⟩ := ended_eq_ok hstep
  have hframe₁ : Frame places d b₁.disk := by
    have hall := frame_performAll mode hapart (fun a ha => (hpre a ha).2) hframe
    rwa [hrun₁] at hall
  have hheld₁ : Held d l entry b₁.disk := by
    have hall := held_performAll hapart hl hframe mode hpre h
    rwa [hrun₁] at hall
  have hapart₁ := (hapart.frame hframe₁).singleton hl
  obtain ⟨hleads, -, hentry⟩ := Disk.saveTwin_landed hapart₁ hheld₁.leads hsave
  rw [Disk.absoluteKey_of_home hframe₁.home, hheld₁.entry] at hentry
  have hframe₂ : Frame places d b₂.disk := by
    have hone := Disk.frame_saveTwin hapart₁ mode content
    rw [hsave] at hone
    exact hframe₁.trans (hone.mono (by simpa using hl))
  have hall := held_performAll hapart hl hframe₂ mode hpost ⟨hleads, hentry⟩
  rwa [hrun₂] at hall

end Perform

end Held

/-! ### An aggregate -/

section Seen

variable {skeleton : String} {key : BlockKey} {v : Except Failure View} {e e' : Disk}
  {f : Twin Aggregate.Fragment}

/-- What a key sees of the aggregate at `l` on `e`, which `d` became. -/
structure Seen (d : Disk) (l : Location) (skeleton : String) (key : BlockKey)
    (v : Except Failure View) (e : Disk) : Prop where
  leads : e.Leads l
  view : viewAt skeleton key (e.entry? (d.absoluteKey l)) = v
  clean : (Aggregate.Document.parse skeleton).Clean → CleanAt (d.entry? (d.absoluteKey l)) →
    CleanAt (e.entry? (d.absoluteKey l))

/-- Actions that leave the view of a key. -/
inductive Passes (d : Disk) (l : Location) (skeleton : String) (key : BlockKey) : Action → Prop where
  | elsewhere {a : Action} (h : a.Elsewhere d l) : Passes d l skeleton key a
  | merge {f : Twin Aggregate.Fragment} (hf : f.first.WellFormed)
      (hskeleton : f.first.skeleton = skeleton)
      (hkey : ∀ block ∈ f.first.blocks, key ≠ ⟨block.1, f.first.api⟩) :
      Passes d l skeleton key (.patch l f)

theorem seen_self (hleads : d.Leads l) (skeleton : String) (key : BlockKey) :
    Seen d l skeleton key (viewAt skeleton key (d.entry? (d.absoluteKey l))) d :=
  ⟨hleads, rfl, fun _ h => h⟩

theorem Seen.sameFile (h : Seen d l skeleton key v e) (hhome : e.home = d.home)
    (hsame : SameFile e e' l) : Seen d l skeleton key v e' := by
  have htext := hsame.textOf_eq
  rw [Disk.absoluteKey_of_home hhome] at htext
  refine ⟨hsame.leads', ?_, fun hskeleton hclean text htext' => ?_⟩
  · rw [← h.view, viewAt, viewAt, htext]
  · exact h.clean hskeleton hclean text (htext ▸ htext')

/-- A merge into the aggregate itself. -/
theorem Seen.merged {w : Except Failure View} {existing : Option String} {f : Aggregate.Fragment}
    (h : Seen d l f.skeleton key v e) (hf : f.WellFormed) (hleads : e'.Leads l)
    (htext : Disk.textOf (e.entry? (d.absoluteKey l)) = .ok existing)
    (hentry : e'.entry? (d.absoluteKey l) =
      Disk.rewritten (Aggregate.mergeText existing f).1 (e.entry? (d.absoluteKey l)))
    (hview : viewAt f.skeleton key
      (Disk.rewritten (Aggregate.mergeText existing f).1 (e.entry? (d.absoluteKey l))) = w) :
    Seen d l f.skeleton key w e' := by
  refine ⟨hleads, by rw [hentry, hview], fun hskeleton hclean text htext' => ?_⟩
  have hclean' := h.clean hskeleton hclean
  by_cases hdirectory : e.entry? (d.absoluteKey l) = some .directory
  · rw [hentry, hdirectory] at htext'
    exact absurd htext' (by simp [Disk.rewritten, Disk.textOf])
  · rw [hentry, Aggregate.textOf_merged hf hdirectory htext] at htext'
    obtain rfl := Option.some.inj (Except.ok.inj htext')
    rw [Aggregate.Document.parse_mergeText hf]
    refine Aggregate.Document.Clean.merge ?_ hf (Aggregate.Document.sound_parse _)
    cases existing with
    | none => exact hskeleton
    | some old => exact hclean' old htext

section Perform

variable (hapart : d.Apart places) (hl : l ∈ places) (hframe : Frame places d b.disk)

include hapart hl hframe

theorem Passes.seen (ha : a.Passes d l skeleton key) (hwithin : a.Within places)
    (h : Seen d l skeleton key v b.disk) :
    Seen d l skeleton key v (a.perform mode b).2.disk := by
  have hapart' := hapart.frame hframe
  have hkey := Disk.absoluteKey_of_home hframe.home l
  cases ha with
  | elsewhere helsewhere =>
      exact h.sameFile hframe.home
        (h.leads.sameFile (frame_place hapart' hwithin) (helsewhere.not_mem hframe.home))
  | @merge f hf hskeleton hother =>
      subst hskeleton
      cases hpatch : (Aggregate.patch b.disk mode l f).2 with
      | mk result e =>
          have hperform : (perform mode b (.patch l f)).2.disk = e := by rw [perform, hpatch, ended]
          rw [hperform]
          cases result with
          | error failure => exact h.sameFile hframe.home (Aggregate.patch_failed h.leads hpatch)
          | ok saved =>
              obtain ⟨hleads, existing, htext, hentry⟩ :=
                Aggregate.patch_landed (hapart'.singleton hl) h.leads hpatch
              rw [hkey] at htext hentry
              refine h.merged hf hleads htext hentry ?_
              rw [Aggregate.viewAt_merged_of_not_mem hf htext hother, h.view]

/-- What many actions leave that all leave the view. -/
theorem seen_performAll (mode : WriteMode)
    (has : ∀ a ∈ as, a.Passes d l skeleton key ∧ a.Within places)
    (h : Seen d l skeleton key v b.disk) :
    Seen d l skeleton key v (performAll mode b as).2.disk := by
  have hboth : Frame places d (performAll mode b as).2.disk ∧
      Seen d l skeleton key v (performAll mode b as).2.disk := by
    refine performAll_keeps
      (P := fun b => Frame places d b.disk ∧ Seen d l skeleton key v b.disk) ?_ ⟨hframe, h⟩
    rintro a ha b ⟨hframe, hseen⟩
    obtain ⟨hpasses, hwithin⟩ := has a ha
    exact ⟨hframe.trans (frame_perform (hapart.frame hframe) hwithin),
      hpasses.seen hapart hl hframe hwithin hseen⟩
  exact hboth.2

/-- What is seen in the end of a block that one of the actions puts in. -/
theorem seen_patched {f : Twin Aggregate.Fragment} (hf : f.first.WellFormed)
    {block : String × String} (hblock : block ∈ f.first.blocks)
    (hpre : ∀ a ∈ pre, a.Passes d l f.first.skeleton ⟨block.1, f.first.api⟩ ∧ a.Within places)
    (hpost : ∀ a ∈ post, a.Passes d l f.first.skeleton ⟨block.1, f.first.api⟩ ∧ a.Within places)
    (hvacant : d.entry? (d.absoluteKey l) ≠ some .directory)
    (h : Seen d l f.first.skeleton ⟨block.1, f.first.api⟩ v b.disk)
    (hrun : performAll mode b (pre ++ .patch l f :: post) = (.ok (), b')) :
    Seen d l f.first.skeleton ⟨block.1, f.first.api⟩
      (v.map (·.supplied ⟨block.1, f.first.api⟩ block.2)) b'.disk := by
  obtain ⟨b₁, hrun₁, hrest⟩ := performAll_append_eq_ok hrun
  obtain ⟨b₂, hstep, hrun₂⟩ := performAll_cons_eq_ok hrest
  obtain ⟨saved, hpatch, -⟩ := ended_eq_ok hstep
  have hland := Disk.absoluteKey_mem_landings d l
  have hframe₁ : Frame places d b₁.disk := by
    have hall := frame_performAll mode hapart (fun a ha => (hpre a ha).2) hframe
    rwa [hrun₁] at hall
  have hseen₁ : Seen d l f.first.skeleton ⟨block.1, f.first.api⟩ v b₁.disk := by
    have hall := seen_performAll hapart hl hframe mode hpre h
    rwa [hrun₁] at hall
  have hapart₁ := hapart.frame hframe₁
  obtain ⟨hleads, existing, htext, hentry⟩ :=
    Aggregate.patch_landed (hapart₁.singleton hl) hseen₁.leads hpatch
  rw [Disk.absoluteKey_of_home hframe₁.home] at htext hentry
  have hvacant₁ := hapart.not_directory hframe₁ hl hland hvacant
  have hframe₂ : Frame places d b₂.disk := by
    have hone := Aggregate.frame_patch (hapart₁.singleton hl) mode f
    rw [hpatch] at hone
    exact hframe₁.trans (hone.mono (by simpa using hl))
  have hseen₂ : Seen d l f.first.skeleton ⟨block.1, f.first.api⟩
      (v.map (·.supplied ⟨block.1, f.first.api⟩ block.2)) b₂.disk := by
    refine hseen₁.merged hf hleads htext hentry ?_
    rw [Aggregate.viewAt_merged_of_mem hf hvacant₁ htext hblock, hseen₁.view]
  have hall := seen_performAll hapart hl hframe₂ mode hpost hseen₂
  rwa [hrun₂] at hall

end Perform

end Seen

end DartScaffold.Run.Action
