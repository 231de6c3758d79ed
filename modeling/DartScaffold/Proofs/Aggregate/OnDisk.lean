import DartScaffold.Proofs.Aggregate.View
import DartScaffold.Proofs.Disk.Footprint
import DartScaffold.Proofs.Disk.Saving

/-!
Aggregates on a disk. What a block key sees of an aggregate is read off the entry at its place; a file
that is not there looks like the skeleton that it begins as. A merge that fails leaves the view as it
is, and one that succeeds leaves the view of the merged document.
-/

namespace DartScaffold.Aggregate

open Disk (Entry Frame Location SameFile WriteMode)

/-- What a block key sees, where a file that is not there looks like `skeleton`. -/
def viewAt (skeleton : String) (key : BlockKey) (entry : Option Entry) : Except Failure View :=
  (Disk.textOf entry).map fun text => (Document.parse (text.getD skeleton)).view key

/-- The block of a key in the file of an entry, if there is one. -/
def blockAt (key : BlockKey) (entry : Option Entry) : Option Node :=
  match Disk.textOf entry with
  | .ok (some text) => (Document.parse text).firstBlock? key
  | _ => none

section Patch

variable {d e : Disk} {mode : WriteMode} {l : Location} {f : Twin Fragment}

theorem first_map {α β : Type} (g : α → β) (t : Twin α) : (g <$> t).first = g t.first := by
  cases t <;> rfl

theorem patch_error {failure : Failure} (h : d.textIfFile l = .error failure) (mode : WriteMode)
    (f : Twin Fragment) : (patch d mode l f).2 = (.error failure, d) := by
  simp [patch, h]

theorem patch_ok {existing : Option String} (h : d.textIfFile l = .ok existing) (mode : WriteMode)
    (f : Twin Fragment) : (patch d mode l f).2 =
      d.saveTwin mode l (Prod.fst <$> (mergeText existing <$> f)) := by
  simp [patch, h]

theorem frame_patch (h : d.Apart [l]) (mode : WriteMode) (f : Twin Fragment) :
    Frame [l] d (patch d mode l f).2.2 := by
  cases htext : d.textIfFile l with
  | error failure =>
      rw [patch_error htext]
      exact .refl _ _
  | ok existing =>
      rw [patch_ok htext]
      exact Disk.frame_saveTwin h mode _

theorem writesTo_patch (d : Disk) (mode : WriteMode) (l : Location) (f : Twin Fragment) :
    Disk.WritesTo mode [l] d (patch d mode l f).2.2 := by
  cases htext : d.textIfFile l with
  | error failure =>
      rw [patch_error htext]
      exact .refl _ _ _
  | ok existing =>
      rw [patch_ok htext]
      exact Disk.writesTo_saveTwin d mode l _

theorem patch_failed (hleads : d.Leads l) {failure : Failure}
    (h : (patch d mode l f).2 = (.error failure, e)) : SameFile d e l := by
  cases htext : d.textIfFile l with
  | error failure =>
      rw [patch_error htext] at h
      obtain rfl : d = e := congrArg Prod.snd h
      exact ⟨rfl, hleads, hleads, fun _ => Iff.rfl⟩
  | ok existing =>
      rw [patch_ok htext] at h
      exact Disk.saveTwin_failed hleads h

theorem path_of_patch {saved : Saved} (h : (patch d mode l f).2 = (.ok saved, e)) :
    saved.path = l.toString := by
  cases htext : d.textIfFile l with
  | error failure =>
      rw [patch_error htext] at h
      exact absurd (congrArg Prod.fst h) (by simp)
  | ok existing =>
      rw [patch_ok htext] at h
      exact Disk.path_of_saveTwin h

theorem patch_landed (hapart : d.Apart [l]) (hleads : d.Leads l) {saved : Saved}
    (h : (patch d mode l f).2 = (.ok saved, e)) :
    e.Leads l ∧ ∃ existing, Disk.textOf (d.entry? (d.absoluteKey l)) = .ok existing ∧
      e.entry? (d.absoluteKey l) =
        Disk.rewritten (mergeText existing f.first).1 (d.entry? (d.absoluteKey l)) := by
  cases htext : d.textIfFile l with
  | error failure =>
      rw [patch_error htext] at h
      exact absurd (congrArg Prod.fst h) (by simp)
  | ok existing =>
      rw [patch_ok htext] at h
      obtain ⟨hleads', hlong, hentry⟩ := Disk.saveTwin_landed hapart hleads h
      rw [first_map, first_map] at hentry
      exact ⟨hleads', existing, (hleads.textIfFile_eq hlong).symm.trans htext, hentry⟩

end Patch

/-! ### What is seen of an entry -/

section View

variable {entry : Option Entry} {existing : Option String} {key : BlockKey} {f : Fragment}

theorem carriage_not_mem_of_textOf (h : Disk.textOf entry = .ok existing) :
    ∀ text ∈ existing, '\r' ∉ text.toList := by
  rintro text rfl
  match entry, h with
  | none, h => exact absurd h (by simp [Disk.textOf])
  | some .directory, h => exact absurd h (by simp [Disk.textOf])
  | some (.file bytes), h =>
      rw [Disk.textOf] at h
      split at h
      · rename_i raw _
        obtain rfl := Option.some.inj (Except.ok.inj h)
        rw [String.toList_ofList]
        exact Text.carriage_not_mem_normalizeNewlines _
      · contradiction

theorem viewAt_of_textOf (h : Disk.textOf entry = .ok existing) (skeleton : String)
    (key : BlockKey) :
    viewAt skeleton key entry = .ok ((Document.parse (existing.getD skeleton)).view key) := by
  rw [viewAt, h]
  rfl

/-- After a merge the entry shows the merged document. -/
theorem textOf_merged (hf : f.WellFormed) (hentry : entry ≠ some .directory)
    (htext : Disk.textOf entry = .ok existing) :
    Disk.textOf (Disk.rewritten (mergeText existing f).1 entry) =
      .ok (some (mergeText existing f).1) :=
  Disk.textOf_rewritten hentry (carriage_not_mem_mergeText hf (carriage_not_mem_of_textOf htext))

theorem viewAt_merged (hf : f.WellFormed) (hentry : entry ≠ some .directory)
    (htext : Disk.textOf entry = .ok existing) (key : BlockKey) :
    viewAt f.skeleton key (Disk.rewritten (mergeText existing f).1 entry) =
      .ok (((Document.parse (existing.getD f.skeleton)).merge f).1.view key) := by
  rw [viewAt_of_textOf (textOf_merged hf hentry htext), Option.getD_some,
    Document.parse_mergeText hf]

theorem viewAt_merged_of_not_mem (hf : f.WellFormed) (htext : Disk.textOf entry = .ok existing)
    (hkey : ∀ block ∈ f.blocks, key ≠ ⟨block.1, f.api⟩) :
    viewAt f.skeleton key (Disk.rewritten (mergeText existing f).1 entry) =
      viewAt f.skeleton key entry := by
  by_cases hentry : entry = some .directory
  · rw [hentry]
    rfl
  · have hview := Document.view_merge_of_not_mem hf
      (Document.sound_parse (existing.getD f.skeleton)) hkey
    rw [viewAt_merged hf hentry htext, viewAt_of_textOf htext, hview]

theorem viewAt_merged_of_mem (hf : f.WellFormed) (hentry : entry ≠ some .directory)
    (htext : Disk.textOf entry = .ok existing) {block : String × String}
    (hblock : block ∈ f.blocks) :
    viewAt f.skeleton ⟨block.1, f.api⟩ (Disk.rewritten (mergeText existing f).1 entry) =
      (viewAt f.skeleton ⟨block.1, f.api⟩ entry).map (·.supplied ⟨block.1, f.api⟩ block.2) := by
  have hview := Document.view_merge hf (Document.sound_parse (existing.getD f.skeleton)) hblock
  rw [viewAt_merged hf hentry htext, viewAt_of_textOf htext, hview]
  rfl

end View

/-- The block that a merge leaves of a fragment's text, by the entry that the aggregate begins as. -/
def suppliedAt (skeleton : String) (key : BlockKey) (body : String) : Option Entry → Option Node
  | some .directory => none
  | entry => (viewAt skeleton key entry).toOption.bind fun v => (v.supplied key body).block

theorem suppliedAt_of_ne {skeleton : String} {entry : Option Entry} (h : entry ≠ some .directory)
    (key : BlockKey) (body : String) : suppliedAt skeleton key body entry =
      (viewAt skeleton key entry).toOption.bind fun v => (v.supplied key body).block := by
  match entry, h with
  | none, _ => rfl
  | some (.file bytes), _ => rfl

/-- The files that begin as a skeleton without blocks have the block that the key sees. -/
theorem blockAt_eq {skeleton : String} (h : (Document.parse skeleton).blockKeys = [])
    (key : BlockKey) (entry : Option Entry) :
    blockAt key entry = (viewAt skeleton key entry).toOption.bind View.block := by
  rw [blockAt, viewAt]
  cases Disk.textOf entry with
  | error failure => rfl
  | ok found =>
      cases found with
      | some text => rfl
      | none =>
          have hnone : key ∉ (Document.parse skeleton).blockKeys := by simp [h]
          exact (Document.firstBlock?_eq_none hnone).symm

/-! ### Pruning on a disk -/

/-- The text of an entry, if it has one, has no markers but those of its blocks. -/
def CleanAt (entry : Option Entry) : Prop :=
  ∀ text, Disk.textOf entry = .ok (some text) → (Document.parse text).Clean

section Prune

variable {d e : Disk} {mode : WriteMode} {l : Location} {keep : List String}

theorem carriage_not_mem_pruneText? {text pruned : String} (h : pruneText? keep text = some pruned)
    (htext : '\r' ∉ text.toList) : '\r' ∉ pruned.toList := by
  rw [pruneText?] at h
  split at h
  · contradiction
  · obtain rfl := Option.some.inj h
    refine Document.not_mem_render (by decide) fun line hline => ?_
    obtain ⟨node, hnode, hline⟩ := List.mem_flatMap.mp hline
    have hsub := (Document.prune_sublist (Document.parse text) keep).subset hnode
    exact Document.lacks_parse htext line (List.mem_flatMap.mpr ⟨node, hsub, hline⟩)

theorem frame_prune (h : d.Apart [l]) (mode : WriteMode) (keep : List String) :
    Frame [l] d (prune d mode l keep).2 := by
  rw [prune]
  split
  · exact .refl _ _
  · split
    · exact .refl _ _
    · exact Disk.frame_save h mode _

/-- Pruning leaves what the APIs that are kept see, whether or not it succeeds. -/
theorem prune_landed (hapart : d.Apart [l]) (hleads : d.Leads l)
    (hclean : CleanAt (d.entry? (d.absoluteKey l))) {key : BlockKey} (hkey : key.api ∈ keep)
    (h : (prune d mode l keep).2 = e) (skeleton : String) :
    e.Leads l ∧ CleanAt (e.entry? (d.absoluteKey l)) ∧
      viewAt skeleton key (e.entry? (d.absoluteKey l)) =
        viewAt skeleton key (d.entry? (d.absoluteKey l)) := by
  rw [prune] at h
  split at h
  · obtain rfl : d = e := h
    exact ⟨hleads, hclean, rfl⟩
  · rename_i existing htext
    split at h
    · obtain rfl : d = e := h
      exact ⟨hleads, hclean, rfl⟩
    · rename_i pruned hpruned
      obtain ⟨text, rfl, hpruned⟩ := Option.bind_eq_some_iff.mp hpruned
      dsimp only at h
      cases hsave : d.save mode l pruned with
      | mk result e' =>
          obtain rfl : e' = e := by rwa [hsave] at h
          cases result with
          | error failure =>
              have hsame := Disk.save_failed hleads hsave
              rw [CleanAt, viewAt, viewAt, hsame.textOf_eq]
              exact ⟨hsame.leads', hclean, rfl⟩
          | ok saved =>
              obtain ⟨hleads', hlong, hentry⟩ := Disk.save_landed hapart hleads hsave
              have htextOf := (hleads.textIfFile_eq hlong).symm.trans htext
              have hne : d.entry? (d.absoluteKey l) ≠ some .directory := by
                intro hd
                rw [hd] at htextOf
                exact absurd htextOf (by simp [Disk.textOf])
              have hcarriage := carriage_not_mem_pruneText? hpruned
                (carriage_not_mem_of_textOf htextOf text rfl)
              have htextOf' := Disk.textOf_rewritten hne hcarriage
              rw [CleanAt, viewAt, viewAt, hentry, htextOf', htextOf]
              refine ⟨hleads', ?_, congrArg Except.ok
                (Document.view_pruneText? hpruned (hclean text htextOf) hkey)⟩
              rintro found hfound
              obtain rfl := Option.some.inj (Except.ok.inj hfound)
              exact Document.clean_pruneText? hpruned (hclean text htextOf)

end Prune

end DartScaffold.Aggregate
