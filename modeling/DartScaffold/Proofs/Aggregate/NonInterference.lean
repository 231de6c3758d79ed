import DartScaffold.Proofs.Aggregate.Run

/-!
A merge leaves what is not its own alone. The nodes of the merged document are those of the old one
in their order, apart from nodes that were put in, which are import lines, blank lines and blocks of
the fragment's API, and from the first block of a section of that API, which may have been replaced.
A `Change` is the history of one node; `MergedFrom` says that there is such a history of them all.

The text of the merged document is read back as this document, so the same holds of the file that a
later call finds, whatever stray markers the old text had.
-/

namespace DartScaffold.Aggregate

open Disk (Location WriteMode)

/-- How a node of a merged document came about. -/
inductive Change where
  | kept (node : Node)
  | added (node : Node)
  | replaced (old new : Node)

namespace Change

/-- What stood there before. -/
def before : Change → Document
  | kept node => [node]
  | added _ => []
  | replaced old _ => [old]

def after : Change → Node
  | kept node => node
  | added node => node
  | replaced _ new => new

/-- What a merge may do. `d` is the document before it. -/
inductive Allowed (f : Fragment) (d : Document) : Change → Prop where
  | kept (node : Node) : Allowed f d (.kept node)
  | addedImport {node : Node} {key : String} (hkey : node.importKey? = some key)
      (hnew : key ∉ d.importKeys) : Allowed f d (.added node)
  | addedBlank : Allowed f d (.added (.text ""))
  | addedBlock {node : Node} {block : String × String} (hblock : block ∈ f.blocks)
      (hnode : node.key? = some ⟨block.1, f.api⟩) : Allowed f d (.added node)
  | replaced {old new : Node} {block : String × String} (hblock : block ∈ f.blocks)
      (hold : old.key? = some ⟨block.1, f.api⟩) (hnew : new.key? = some ⟨block.1, f.api⟩) :
      Allowed f d (.replaced old new)

/-- Where the later change is a replacement, the earlier one left no block of the same key. -/
def FirstOfItsKey (earlier later : Change) : Prop :=
  ∀ old new, later = .replaced old new → ∀ node ∈ earlier.before, node.key? ≠ old.key?

theorem firstOfItsKey_added (earlier : Change) (node : Node) :
    FirstOfItsKey earlier (.added node) := by
  intro old new h
  contradiction

theorem added_firstOfItsKey (node : Node) (later : Change) :
    FirstOfItsKey (.added node) later := by
  intro old new _ other hother
  simp [before] at hother

/-- The same change with another node as its result. -/
def withAfter (new : Node) : Change → Change
  | kept node => replaced node new
  | added _ => added new
  | replaced old _ => replaced old new

@[simp] theorem before_withAfter (new : Node) (change : Change) :
    (change.withAfter new).before = change.before := by
  cases change <;> rfl

@[simp] theorem after_withAfter (new : Node) (change : Change) :
    (change.withAfter new).after = new := by
  cases change <;> rfl

end Change

/-- The nodes of `d'` are those of `d` after the changes of `script`. -/
structure MergeScript (f : Fragment) (d d' : Document) (script : List Change) : Prop where
  before : script.flatMap Change.before = d
  after : script.map Change.after = d'
  allowed : ∀ change ∈ script, change.Allowed f d
  first : script.Pairwise Change.FirstOfItsKey

def MergedFrom (f : Fragment) (d d' : Document) : Prop :=
  ∃ script, MergeScript f d d' script

/-! ### One edit after others -/

section Script

variable {f : Fragment} {d d' : Document}

theorem MergedFrom.refl (f : Fragment) (d : Document) : MergedFrom f d d := by
  refine ⟨d.map .kept, ?_, ?_, ?_, ?_⟩
  · induction d with
    | nil => rfl
    | cons node d ih => simp [Change.before, ih]
  · rw [List.map_map]
    exact List.map_id d
  · intro change hchange
    obtain ⟨node, -, rfl⟩ := List.mem_map.mp hchange
    exact .kept node
  · refine List.pairwise_map.mpr (List.Pairwise.imp ?_ (List.pairwise_of_forall fun _ _ => trivial))
    intro a b _ old new h
    contradiction

/-- The keys of the old blocks are among those of the new ones. -/
theorem key_mem_after {script : List Change} (h : ∀ change ∈ script, change.Allowed f d)
    {change : Change} (hchange : change ∈ script) {node : Node} (hnode : node ∈ change.before)
    {key : BlockKey} (hkey : node.key? = some key) :
    key ∈ Document.blockKeys (script.map Change.after) := by
  rw [Document.blockKeys_eq]
  refine List.mem_filterMap.mpr ⟨change.after, List.mem_map_of_mem hchange, ?_⟩
  cases change with
  | kept other =>
      obtain rfl : node = other := by simpa [Change.before] using hnode
      exact hkey
  | added other => simp [Change.before] at hnode
  | replaced old new =>
      obtain rfl : node = old := by simpa [Change.before] using hnode
      cases h _ hchange with
      | replaced _ hold hnew => rw [Change.after, hnew, ← hold, hkey]

theorem MergedFrom.insert {pre post : Document} (h : MergedFrom f d (pre ++ post))
    (added : Document) (hadded : ∀ node ∈ added, Change.Allowed f d (.added node)) :
    MergedFrom f d (pre ++ (added ++ post)) := by
  obtain ⟨script, hbefore, hafter, hallowed, hfirst⟩ := h
  obtain ⟨front, back, rfl, rfl, rfl⟩ := List.map_eq_append_iff.mp hafter
  refine ⟨front ++ (added.map .added ++ back), ?_, ?_, ?_, ?_⟩
  · have hnone : (added.map Change.added).flatMap Change.before = [] := by
      simp [List.flatMap_map, Change.before]
    simpa [hnone] using hbefore
  · have hid : (added.map Change.added).map Change.after = added := by
      rw [List.map_map]
      exact List.map_id added
    simp [hid]
  · intro change hchange
    simp only [List.mem_append, List.mem_map] at hchange
    rcases hchange with hchange | ⟨node, hnode, rfl⟩ | hchange
    · exact hallowed change (List.mem_append_left _ hchange)
    · exact hadded node hnode
    · exact hallowed change (List.mem_append_right _ hchange)
  · -- an added node was not there before and replaces nothing
    obtain ⟨hfront, hback, hcross⟩ := List.pairwise_append.mp hfirst
    refine List.pairwise_append.mpr ⟨hfront, List.pairwise_append.mpr ⟨?_, hback, ?_⟩, ?_⟩
    · refine List.pairwise_map.mpr (List.pairwise_of_forall fun node other => ?_)
      exact Change.added_firstOfItsKey node (.added other)
    · intro change hchange later _
      obtain ⟨node, -, rfl⟩ := List.mem_map.mp hchange
      exact Change.added_firstOfItsKey node later
    · intro earlier hearlier later hlater
      rcases List.mem_append.mp hlater with hlater | hlater
      · obtain ⟨node, -, rfl⟩ := List.mem_map.mp hlater
        exact Change.firstOfItsKey_added earlier node
      · exact hcross earlier hearlier later hlater

/-- A change whose result is a block of the fragment may have any other one of this key. -/
theorem Change.Allowed.withAfter {change : Change} (h : change.Allowed f d)
    {block : String × String} (hblock : block ∈ f.blocks)
    (hold : change.after.key? = some ⟨block.1, f.api⟩) {new : Node}
    (hnew : new.key? = some ⟨block.1, f.api⟩) : (change.withAfter new).Allowed f d := by
  cases h with
  | kept => exact .replaced hblock hold hnew
  | addedImport => exact .addedBlock hblock hnew
  | addedBlank => exact .addedBlock hblock hnew
  | addedBlock => exact .addedBlock hblock hnew
  | replaced _ hbefore hafter =>
      have hsame := hafter.symm.trans hold
      exact .replaced hblock (hbefore.trans hsame) hnew

theorem Change.FirstOfItsKey.withAfter {change later : Change}
    (h : change.FirstOfItsKey later) (new : Node) :
    (change.withAfter new).FirstOfItsKey later := by
  intro before after hlater node hnode
  rw [Change.before_withAfter] at hnode
  exact h before after hlater node hnode

/-- The replaced block has the key of the new one, which no earlier node has. -/
theorem Change.firstOfItsKey_withAfter {earlier change : Change} {new : Node} {key : BlockKey}
    (h : (change.withAfter new).Allowed f d) (hnew : new.key? = some key)
    (hfirst : ∀ node ∈ earlier.before, node.key? ≠ some key) :
    earlier.FirstOfItsKey (change.withAfter new) := by
  intro before after hreplaced node hnode
  have hafter := Change.after_withAfter new change
  rw [hreplaced] at h hafter
  cases h with
  | replaced _ hbeforeKey hafterKey =>
      rw [hbeforeKey, ← hafterKey]
      change node.key? ≠ (Change.replaced before after).after.key?
      rw [hafter, hnew]
      exact hfirst node hnode

theorem MergedFrom.replace {pre post : Document} {old new : Node} {block : String × String}
    (h : MergedFrom f d (pre ++ old :: post)) (hblock : block ∈ f.blocks)
    (hold : old.key? = some ⟨block.1, f.api⟩) (hnew : new.key? = some ⟨block.1, f.api⟩)
    (hpre : ⟨block.1, f.api⟩ ∉ Document.blockKeys pre) : MergedFrom f d (pre ++ new :: post) := by
  obtain ⟨script, hbefore, hafter, hallowed, hfirst⟩ := h
  obtain ⟨front, rest, rfl, rfl, hrest⟩ := List.map_eq_append_iff.mp hafter
  obtain ⟨change, back, rfl, rfl, rfl⟩ := List.map_eq_cons_iff.mp hrest
  -- `change` is what made the old block, and is now what makes the new one
  have hchange := hallowed change (by simp)
  have hfrontAllowed : ∀ earlier ∈ front, earlier.Allowed f d :=
    fun earlier hearlier => hallowed earlier (List.mem_append_left _ hearlier)
  refine ⟨front ++ change.withAfter new :: back, ?_, ?_, ?_, ?_⟩
  · simpa using hbefore
  · simp
  · intro other hother
    rcases List.mem_append.mp hother with hother | hother
    · exact hfrontAllowed other hother
    · rcases List.mem_cons.mp hother with rfl | hother
      · exact hchange.withAfter hblock hold hnew
      · exact hallowed other (by simp [hother])
  · obtain ⟨hfront, htail, hcross⟩ := List.pairwise_append.mp hfirst
    obtain ⟨hhead, hback⟩ := List.pairwise_cons.mp htail
    refine List.pairwise_append.mpr ⟨hfront, List.pairwise_cons.mpr ⟨?_, hback⟩, ?_⟩
    · exact fun later hlater => (hhead later hlater).withAfter new
    · intro earlier hearlier later hlater
      rcases List.mem_cons.mp hlater with rfl | hlater
      · refine Change.firstOfItsKey_withAfter (hchange.withAfter hblock hold hnew) hnew ?_
        exact fun node hnode hkey => hpre (key_mem_after hfrontAllowed hearlier hnode hkey)
      · exact hcross earlier hearlier later (List.mem_cons_of_mem _ hlater)

/-! ### The edits of a merge -/

theorem Document.Put.mergedFrom {e e' : Document} {anchored : Bool} {block : String × String}
    (hput : Put ⟨block.1, f.api⟩ block.2 e e' anchored) (hblock : block ∈ f.blocks)
    (h : MergedFrom f d e) : MergedFrom f d e' := by
  cases hput with
  | @replaced pre post first last indent old hpre hfirst =>
      exact h.replace hblock rfl (Node.key?_makeBlock _ _ _) hpre
  | @inserted pre post line indent hkey hpre hanchor =>
      refine h.insert [makeBlock _ block.2 indent, .text ""] ?_
      simp only [List.mem_cons, List.not_mem_nil, or_false]
      rintro node (rfl | rfl)
      · exact .addedBlock hblock (Node.key?_makeBlock _ _ _)
      · exact .addedBlank
  | @appended pre post hkey hpart hpost =>
      refine h.insert [.text "", makeBlock _ block.2 ""] ?_
      simp only [List.mem_cons, List.not_mem_nil, or_false]
      rintro node (rfl | rfl)
      · exact .addedBlank
      · exact .addedBlock hblock (Node.key?_makeBlock _ _ _)

theorem mergedFrom_addImports (f : Fragment) (d : Document) :
    MergedFrom f d (d.addImports f.imports).1 := by
  have hadded : ∀ node ∈ (freshImports d.importKeys f.imports).map Node.directive,
      Change.Allowed f d (.added node) := by
    intro node hnode
    obtain ⟨key, hkey, rfl⟩ := List.mem_map.mp hnode
    obtain ⟨⟨line, -, rfl⟩, -, hnew⟩ := Document.mem_freshImports.mp hkey
    refine .addedImport ?_ hnew
    rw [Node.importKey?, normalizeImport_normalizeImport]
  have hrefl := MergedFrom.refl f d
  have himported := Document.imported_addImports d f.imports
  generalize (d.addImports f.imports).1 = d' at himported
  generalize freshImports d.importKeys f.imports = fresh at himported hadded
  cases himported with
  | nothing => exact hrefl
  | @after pre post line hpost =>
      have hview : MergedFrom f (pre ++ .directive line :: post)
          ((pre ++ [.directive line]) ++ post) := by simpa using hrefl
      simpa using hview.insert _ hadded
  | top =>
      have hview : MergedFrom f d ([] ++ d) := hrefl
      have hinsert := hview.insert (fresh.map .directive ++ [.text ""]) ?_
      · simpa using hinsert
      · intro node hnode
        rcases List.mem_append.mp hnode with hnode | hnode
        · exact hadded node hnode
        · obtain rfl := List.mem_singleton.mp hnode
          exact .addedBlank

theorem mergedFrom_merge (hd : d.Sound) (hf : f.WellFormed) : MergedFrom f d (d.merge f).1 := by
  have hmerged : (d.merge f).1.Sound ∧ MergedFrom f d (d.merge f).1 := by
    refine Document.merge_induction (motive := fun e => e.Sound ∧ MergedFrom f d e) ?_ ?_
    · exact ⟨Document.addImports_sound hf hd, mergedFrom_addImports f d⟩
    · rintro block hblock e ⟨he, h⟩
      have hput := Document.put_putBlock he.faithful ⟨block.1, f.api⟩ block.2
      exact ⟨Document.putBlock_sound hf hblock he, hput.mergedFrom hblock h⟩
  exact hmerged.2

theorem others_sublist {script : List Change} (h : ∀ change ∈ script, change.Allowed f d) :
    ((script.flatMap Change.before).filter fun node => !node.isBlockOf f.api).Sublist
      (script.map Change.after) := by
  induction script with
  | nil => exact List.Sublist.refl _
  | cons change script ih =>
      have hrest := ih fun other hother => h other (List.mem_cons_of_mem _ hother)
      rw [List.flatMap_cons, List.filter_append, List.map_cons]
      cases h change List.mem_cons_self with
      | kept node =>
          rw [Change.before, List.filter_cons, List.filter_nil]
          split
          · exact hrest.cons_cons node
          · exact hrest.cons node
      | addedImport => exact hrest.cons _
      | addedBlank => exact hrest.cons _
      | addedBlock => exact hrest.cons _
      | @replaced old new block _ hold _ =>
          have hown : old.isBlockOf f.api = true := Node.isBlockOf_of_key? hold
          simpa [Change.before, Change.after, hown] using hrest.cons new

theorem filter_after {script : List Change} (h : ∀ change ∈ script, change.Allowed f d)
    {p : Node → Bool} (hblank : p (.text "") = false)
    (himport : ∀ node key, node.importKey? = some key → p node = false)
    (hown : ∀ node, node.isBlockOf f.api = true → p node = false) :
    (script.map Change.after).filter p = (script.flatMap Change.before).filter p := by
  induction script with
  | nil => rfl
  | cons change script ih =>
      obtain ⟨hchange, hrest⟩ := List.forall_mem_cons.mp h
      have hsame : [change.after].filter p = change.before.filter p := by
        cases hchange with
        | kept node => rfl
        | addedImport hkey hnew => simp [Change.after, Change.before, himport _ _ hkey]
        | addedBlank => simp [Change.after, Change.before, hblank]
        | addedBlock hblock hnode =>
            simp [Change.after, Change.before, hown _ (Node.isBlockOf_of_key? hnode)]
        | replaced hblock hold hnew =>
            simp [Change.after, Change.before, hown _ (Node.isBlockOf_of_key? hold),
              hown _ (Node.isBlockOf_of_key? hnew)]
      rw [List.map_cons, List.flatMap_cons, ← List.singleton_append, List.filter_append,
        List.filter_append, hsame, ih hrest]

/-- Of what a merge neither puts in nor replaces, nothing is lost and nothing is new. -/
theorem MergedFrom.filter_eq (h : MergedFrom f d d') {p : Node → Bool}
    (hblank : p (.text "") = false)
    (himport : ∀ node key, node.importKey? = some key → p node = false)
    (hown : ∀ node, node.isBlockOf f.api = true → p node = false) : d'.filter p = d.filter p := by
  obtain ⟨script, hbefore, rfl, hallowed, -⟩ := h
  rw [← hbefore]
  exact filter_after hallowed hblank himport hown

/-- What is no block of the fragment's API is still there, and in the same order. -/
theorem MergedFrom.sublist (h : MergedFrom f d d') :
    (d.filter fun node => !node.isBlockOf f.api).Sublist d' := by
  obtain ⟨script, hbefore, rfl, hallowed, -⟩ := h
  have hothers := others_sublist hallowed
  rwa [hbefore] at hothers

end Script

/-! ### A call on a disk -/

/-- A call hands a text to the disk that is read back, by this or a later call, as the old document
with nothing done to it but what `MergedFrom` allows. -/
theorem patch_mergedFrom {disk : Disk} {place : Location} {text : String} {f : Fragment}
    (htext : disk.textIfFile place = .ok (some text)) (hf : f.WellFormed) (mode : WriteMode) :
    ∃ merged, (patch disk mode place (.same f)).2 = disk.save mode place merged ∧
      (∀ saved disk', disk.save mode place merged = (.ok saved, disk') →
        disk'.textIfFile place = .ok (some merged)) ∧
      Document.parse merged = ((Document.parse text).merge f).1 ∧
      MergedFrom f (Document.parse text) (Document.parse merged) ∧
      ((Document.parse text).filter fun node => !node.isBlockOf f.api).Sublist
        (Document.parse merged) := by
  have hparse : Document.parse (mergeText (some text) f).1 = ((Document.parse text).merge f).1 :=
    Document.parse_mergeText hf (some text)
  have hmerged := mergedFrom_merge (Document.sound_parse text) hf
  refine ⟨(mergeText (some text) f).1, ?_, ?_, hparse, ?_, ?_⟩
  · rw [patch_eq htext]
  · intro saved disk' hsave
    refine Disk.save_reads hsave (Disk.save_vacant_of_textIfFile htext hsave) ?_
    exact carriage_not_mem_mergeText hf (carriage_not_mem_of_textIfFile htext)
  · rw [hparse]
    exact hmerged
  · rw [hparse]
    exact hmerged.sublist

/-- A file whose stray marker looks like the beginning of the new block. -/
theorem patch_mergedFrom_stray :
    (callsDisk "// json2dart:begin calls:users\nkeep").textIfFile callsPlace =
        .ok (some "// json2dart:begin calls:users\nkeep") ∧
      (callFragment "users").WellFormed ∧
      ∃ merged, (patch (callsDisk "// json2dart:begin calls:users\nkeep") .inPlace callsPlace
          (.same (callFragment "users"))).2 =
            (callsDisk "// json2dart:begin calls:users\nkeep").save .inPlace callsPlace merged ∧
        MergedFrom (callFragment "users")
          (Document.parse "// json2dart:begin calls:users\nkeep") (Document.parse merged) := by
  have htext := textIfFile_callsDisk "// json2dart:begin calls:users\nkeep" (by decide)
  have hf : (callFragment "users").WellFormed := by decide +kernel
  obtain ⟨merged, hsave, -, -, hmerged, -⟩ := patch_mergedFrom htext hf .inPlace
  exact ⟨htext, hf, merged, hsave, hmerged⟩

end DartScaffold.Aggregate
