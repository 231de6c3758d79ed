import DartScaffold.Proofs.Aggregate.Idempotence
import DartScaffold.Proofs.Aggregate.Removal

/-!
What a block key sees of an aggregate: its first block, and the indent of the anchor that a new block of
it goes before. This is all that a merge depends on for the block it leaves, and neither fragments that
have no such block nor the removal of other APIs change it.
-/

namespace DartScaffold.Aggregate

/-- The indent of the begin marker of a block. -/
def Node.indent : Node → String
  | .block _ first _ _ => ((begin? first).map Prod.fst).getD ""
  | _ => ""

structure View where
  block : Option Node
  /-- The indent of the first anchor of the section. -/
  anchor : Option String

namespace View

/-- The indent of the block that is put in. -/
def indent (v : View) : String :=
  (v.block.map Node.indent).getD (v.anchor.getD "")

def supplied (v : View) (key : BlockKey) (body : String) : View :=
  { v with block := some (makeBlock key body v.indent) }

end View

namespace Document

def anchorOf (part : String) : Node → Option String
  | .anchor _ other indent => if other = part then some indent else none
  | _ => none

def view (d : Document) (key : BlockKey) : View :=
  { block := d.firstBlock? key, anchor := d.findSome? (anchorOf key.part) }

section Merge

variable {key other : BlockKey} {body : String} {d d' : Document} {anchored : Bool} {f : Fragment}

theorem findSome?_eq_none {part : String} (h : part ∉ d.anchorParts) :
    d.findSome? (anchorOf part) = none := by
  rw [List.findSome?_eq_none_iff]
  intro node hnode
  cases node with
  | anchor line found indent =>
      rw [anchorOf, if_neg]
      rintro rfl
      exact h (List.mem_filterMap.mpr ⟨_, hnode, rfl⟩)
  | _ => rfl

/-- No edit of a block touches an anchor. -/
theorem Put.findSome?_anchorOf (h : Put key body d d' anchored) (part : String) :
    d'.findSome? (anchorOf part) = d.findSome? (anchorOf part) := by
  cases h <;> simp [List.findSome?_append, List.findSome?_cons, makeBlock_eq, anchorOf]

theorem Imported.findSome?_anchorOf {fresh : List String} (h : Imported fresh d d')
    (part : String) : d'.findSome? (anchorOf part) = d.findSome? (anchorOf part) := by
  have hfresh : (fresh.map Node.directive).findSome? (anchorOf part) = none := by
    simp [List.findSome?_eq_none_iff, anchorOf]
  cases h with
  | nothing => rfl
  | after _ => simp [List.findSome?_append, List.findSome?_cons, hfresh]
  | top _ _ => simp [List.findSome?_append, List.findSome?_cons, hfresh, anchorOf]

theorem Put.view_of_ne (h : Put key body d d' anchored) (hne : other ≠ key) :
    d'.view other = d.view other := by
  rw [view, view, h.firstBlock?_of_ne hne, h.findSome?_anchorOf]

theorem Imported.view {fresh : List String} (h : Imported fresh d d') (key : BlockKey) :
    d'.view key = d.view key := by
  rw [Document.view, Document.view, h.firstBlock?, h.findSome?_anchorOf]

/-- The block that is put in has the indent that the view tells. -/
theorem Put.view_self (h : Put key body d d' anchored) :
    d'.view key = (d.view key).supplied key body := by
  have hanchor := h.findSome?_anchorOf key.part
  rw [view, hanchor, View.supplied, view]
  congr 1
  cases h with
  | @replaced pre post first last indent old hpre hfirst =>
      simp [firstBlock?_append, firstBlock?_cons, firstBlock?_eq_none hpre, View.indent, Node.indent,
        hfirst]
  | @inserted pre post line indent hkey hpre hanchor =>
      have hnone := firstBlock?_eq_none hkey
      have hpre' : key ∉ blockKeys pre := fun h => hkey (by simp [h])
      simp [firstBlock?_append, firstBlock?_cons, firstBlock?_eq_none hpre', View.indent, hnone,
        List.findSome?_append, findSome?_eq_none hpre, anchorOf]
  | @appended pre post hkey hpart hpost =>
      have hpre' : key ∉ blockKeys pre := fun h => hkey (by simp [h])
      simp [firstBlock?_append, firstBlock?_cons, firstBlock?_eq_none hpre', View.indent,
        firstBlock?_eq_none hkey, findSome?_eq_none hpart]

theorem view_putBlocks_of_not_mem (hf : f.WellFormed) {blocks : List (String × String)}
    (hblocks : blocks ⊆ f.blocks) (hkey : ∀ block ∈ blocks, key ≠ ⟨block.1, f.api⟩)
    (hd : d.Sound) : (putBlocks f.api d blocks).1.view key = d.view key := by
  have hput : (putBlocks f.api d blocks).1.Sound ∧
      (putBlocks f.api d blocks).1.view key = d.view key := by
    refine putBlocks_induction
      (motive := fun e => e.Sound ∧ e.view key = d.view key) ⟨hd, rfl⟩ ?_
    rintro block hblock e ⟨he, hsame⟩
    have hput := put_putBlock he.faithful ⟨block.1, f.api⟩ block.2
    refine ⟨putBlock_sound hf (hblocks hblock) he, ?_⟩
    rw [hput.view_of_ne (hkey block hblock), hsame]
  exact hput.2

theorem view_addImports (d : Document) (imports : List String) (key : BlockKey) :
    (d.addImports imports).1.view key = d.view key :=
  (imported_addImports d imports).view key

/-- A merge leaves the view of a block that the fragment does not have. -/
theorem view_merge_of_not_mem (hf : f.WellFormed) (hd : d.Sound)
    (hkey : ∀ block ∈ f.blocks, key ≠ ⟨block.1, f.api⟩) : (d.merge f).1.view key = d.view key := by
  have hput := view_putBlocks_of_not_mem hf (List.Subset.refl _) hkey (addImports_sound hf hd)
  rw [merge, hput, view_addImports]

theorem view_putBlocks (hf : f.WellFormed) {blocks : List (String × String)}
    (hblocks : blocks ⊆ f.blocks) (hdistinct : (blocks.map Prod.fst).Nodup) (hd : d.Sound) :
    ∀ block ∈ blocks, (putBlocks f.api d blocks).1.view ⟨block.1, f.api⟩ =
      (d.view ⟨block.1, f.api⟩).supplied ⟨block.1, f.api⟩ block.2 := by
  induction blocks generalizing d with
  | nil => simp
  | cons first blocks ih =>
      obtain ⟨hfirst, hrest⟩ := List.forall_mem_cons.mp hblocks
      obtain ⟨hnew, hdistinct⟩ := List.nodup_cons.mp hdistinct
      have hmiddle := putBlock_sound hf hfirst hd
      have hput := put_putBlock hd.faithful ⟨first.1, f.api⟩ first.2
      -- sections that come later have other keys than the first
      have hother : ∀ other ∈ blocks, (⟨first.1, f.api⟩ : BlockKey) ≠ ⟨other.1, f.api⟩ :=
        fun other hother heq => hnew (List.mem_map.mpr ⟨other, hother, (congrArg BlockKey.part heq).symm⟩)
      rw [putBlocks]
      refine List.forall_mem_cons.mpr ⟨?_, fun block hblock => ?_⟩
      · rw [view_putBlocks_of_not_mem hf hrest hother hmiddle, hput.view_self]
      · rw [ih hrest hdistinct hmiddle block hblock, hput.view_of_ne (hother block hblock).symm]

/-- A merge leaves the block that its fragment has, indented by what the view told before. -/
theorem view_merge (hf : f.WellFormed) (hd : d.Sound) {block : String × String}
    (hblock : block ∈ f.blocks) : (d.merge f).1.view ⟨block.1, f.api⟩ =
      (d.view ⟨block.1, f.api⟩).supplied ⟨block.1, f.api⟩ block.2 := by
  have hput := view_putBlocks hf (List.Subset.refl _) hf.distinct (addImports_sound hf hd) block hblock
  rw [merge, hput, view_addImports]

end Merge

/-! ### Pruning -/

/-- No line outside a block is a marker of one. -/
def Clean (d : Document) : Prop :=
  ∀ node ∈ d, node.Harmless

section Prune

variable {key : BlockKey} {d d' : Document} {f : Fragment}

theorem Clean.faithful (h : d.Clean) : d.Faithful := by
  have hnil : Faithful (d ++ []) := Faithful.nil.append_harmless h
  rwa [List.append_nil] at hnil

theorem Put.clean {body : String} {anchored : Bool} (h : Put key body d d' anchored)
    (hkey : key.Valid) (hbody : IsBody key (Text.splitLines body)) (hd : d.Clean) : d'.Clean := by
  have hblock : ∀ {indent : String}, IsIndent indent → (makeBlock key body indent).Harmless :=
    fun hindent => harmless_makeBlock hkey hbody hindent
  cases h with
  | @replaced pre post first last indent old hpre hfirst =>
      simp only [Clean, List.forall_mem_append, List.forall_mem_cons] at hd ⊢
      exact ⟨hd.1, hblock (isIndent_of_begin? hfirst), hd.2.2⟩
  | @inserted pre post line indent hnone hpre hanchor =>
      simp only [Clean, List.forall_mem_append, List.forall_mem_cons] at hd ⊢
      exact ⟨hd.1, hblock (isIndent_of_anchor? hanchor), harmless_blank, hd.2⟩
  | @appended pre post hnone hpart hpost =>
      simp only [Clean, List.forall_mem_append, List.forall_mem_cons] at hd ⊢
      exact ⟨hd.1, harmless_blank, hblock (by simp [IsIndent]), hd.2⟩

theorem Imported.clean {fresh : List String} (h : Imported fresh d d')
    (hfresh : ∀ key ∈ fresh, isImportLine key = true) (hd : d.Clean) : d'.Clean := by
  have hadded : ∀ node ∈ fresh.map Node.directive, node.Harmless := by
    intro node hnode
    obtain ⟨key, hkey, rfl⟩ := List.mem_map.mp hnode
    exact harmless_directive (hfresh key hkey)
  cases h with
  | nothing => exact hd
  | after _ =>
      simp only [Clean, List.forall_mem_append, List.forall_mem_cons] at hd ⊢
      exact ⟨hd.1, hd.2.1, hadded, hd.2.2⟩
  | top _ _ =>
      simp only [Clean, List.forall_mem_append, List.forall_mem_cons]
      exact ⟨hadded, harmless_blank, hd⟩

theorem Clean.merge (hd : d.Clean) (hf : f.WellFormed) (hsound : d.Sound) :
    (d.merge f).1.Clean := by
  have hmerged : (d.merge f).1.Sound ∧ (d.merge f).1.Clean := by
    refine merge_induction (motive := fun e => e.Sound ∧ e.Clean) ?_ ?_
    · exact ⟨addImports_sound hf hsound, (imported_addImports d f.imports).clean
        (fun _ => isImportLine_of_mem_freshImports hf) hd⟩
    · rintro block hblock e ⟨he, hclean⟩
      exact ⟨putBlock_sound hf hblock he, (put_putBlock he.faithful _ _).clean (hf.valid hblock)
        (hf.bodies block hblock) hclean⟩
  exact hmerged.2

theorem view_cons (node : Node) (d : Document) (key : BlockKey) :
    view (node :: d) key =
      { block := if node.key? = some key then some node else (view d key).block
        anchor := (anchorOf key.part node).or (view d key).anchor } := by
  rw [view, view, firstBlock?_cons, List.findSome?_cons]
  cases anchorOf key.part node <;> rfl

theorem view_cons_of_none {node : Node} (hkey : node.key? ≠ some key)
    (hanchor : anchorOf key.part node = none) (d : Document) : view (node :: d) key = view d key := by
  rw [view_cons, if_neg hkey, hanchor, Option.none_or]

/-- Nothing that is removed is a block of another API, or an anchor. -/
theorem Pruned.view {stale : List String} {n : Nat} (h : Pruned stale n d d')
    (hkey : key.api ∉ stale) : d'.view key = d.view key := by
  induction h with
  | nil => rfl
  | @block n k first last body d e hstale _ ih =>
      have hne : (Node.block k first body last).key? ≠ some key := by
        intro hsome
        obtain rfl : k = key := by simpa using hsome
        exact hkey hstale
      rw [ih, view_cons_of_none hne rfl]
  | blank _ ih => rw [ih, view_cons_of_none (by simp) rfl]
  | directive _ _ _ ih => rw [ih, view_cons_of_none (by simp) rfl]
  | kept _ _ ih => rw [view_cons, ih, ← view_cons]

theorem view_prune {keep : List String} (hkey : key.api ∈ keep) (d : Document) :
    (d.prune keep).view key = d.view key := by
  refine (pruned_prune d keep).view fun hstale => ?_
  simp [stale, hkey] at hstale

theorem Clean.sublist (h : d.Clean) (hsub : d'.Sublist d) : d'.Clean :=
  fun node hnode => h node (hsub.subset hnode)

/-- A clean text, pruned, reads back as its document was left; an empty document renders as a file with
an empty line. -/
theorem parse_pruneText? {keep : List String} {text pruned : String}
    (h : pruneText? keep text = some pruned) (hclean : (parse text).Clean) :
    parse pruned = (parse text).prune keep ∨
      (parse text).prune keep = [] ∧ parse pruned = [.ofLine ""] := by
  rw [pruneText?] at h
  split at h
  · contradiction
  · obtain rfl := Option.some.inj h
    have hsub := prune_sublist (parse text) keep
    by_cases hne : (parse text).prune keep = []
    · exact .inr ⟨hne, by rw [hne]; rfl⟩
    · have hsound : ((parse text).prune keep).Sound := by
        refine ⟨(hclean.sublist hsub).faithful, ?_, hne⟩
        intro line hline
        obtain ⟨node, hnode, hline⟩ := List.mem_flatMap.mp hline
        exact (sound_parse text).newlines line
          (List.mem_flatMap.mpr ⟨node, hsub.subset hnode, hline⟩)
      exact .inl (parse_render hsound)

/-- Pruning a text leaves the view of what is kept. -/
theorem view_pruneText? {keep : List String} {text pruned : String}
    (h : pruneText? keep text = some pruned) (hclean : (parse text).Clean)
    (hkey : key.api ∈ keep) : (parse pruned).view key = (parse text).view key := by
  rw [← view_prune hkey (parse text)]
  rcases parse_pruneText? h hclean with hparse | ⟨hempty, hparse⟩
  · rw [hparse]
  · rw [hparse, hempty]
    rfl

theorem clean_pruneText? {keep : List String} {text pruned : String}
    (h : pruneText? keep text = some pruned) (hclean : (parse text).Clean) :
    (parse pruned).Clean := by
  rcases parse_pruneText? h hclean with hparse | ⟨-, hparse⟩
  · rw [hparse]
    exact hclean.sublist (prune_sublist (parse text) keep)
  · rw [hparse]
    exact List.forall_mem_singleton.mpr (.line (by decide) (by decide))

end Prune

end Document

end DartScaffold.Aggregate
