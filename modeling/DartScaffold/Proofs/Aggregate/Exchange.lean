import DartScaffold.Proofs.Aggregate.History
import DartScaffold.Proofs.Aggregate.View

/-!
Merges for different APIs commute. What a merge puts in and takes out, as multisets of nodes, depends on
the views of its own keys and on the known imports alone, and a merge for another API changes neither;
so both orders arrive at the same nodes, up to their places. Where every block and import is there
already the places are fixed as well, and the documents are equal.
-/

namespace DartScaffold.Aggregate

open Disk (Location WriteMode)

/-- What is put in for a key with this view. -/
def View.added (v : View) (key : BlockKey) (body : String) : Document :=
  makeBlock key body v.indent :: if v.block.isSome then [] else [.text ""]

namespace Document

/-- The block that a look-up of `key` finds. -/
def blockOf? (d : Document) (key : BlockKey) : Option Node :=
  (d.findBlock? key).bind fun i => d[i]?

theorem findBlock?_eq (d : Document) (key : BlockKey) :
    d.findBlock? key = (d.map Node.key?).findIdx? (· == some key) := by
  rw [List.findIdx?_map, findBlock?]
  congr 1
  funext node
  cases node <;> simp

theorem blockOf?_eq (d : Document) (key : BlockKey) : d.blockOf? key = d.firstBlock? key := by
  rw [firstBlock?, List.find?_eq_bind_findIdx?_getElem?, blockOf?, findBlock?_eq, List.findIdx?_map]
  rfl

/-! ### What is put in and what is taken out -/

/-- The nodes of `d'` are those of `d`, less those of `gone`, and those of `come`. -/
def Traded (gone come d d' : Document) : Prop :=
  ∀ node, gone.count node + d'.count node = come.count node + d.count node

section Traded

variable {gone gone' come come' d d' d'' : Document} {key : BlockKey} {body : String}
  {anchored : Bool} {f g : Fragment}

theorem Traded.refl (d : Document) : Traded [] [] d d := fun _ => rfl

theorem Traded.trans (h : Traded gone come d d') (h' : Traded gone' come' d' d'') :
    Traded (gone ++ gone') (come ++ come') d d'' := by
  intro node
  have hfirst := h node
  have hsecond := h' node
  simp only [List.count_append]
  omega

/-- Trades that give the same for the same lead to the same nodes. -/
theorem Traded.perm (h : Traded gone come d d') (h' : Traded gone' come' d d'')
    (hgone : gone.Perm gone') (hcome : come.Perm come') : d'.Perm d'' := by
  rw [List.perm_iff_count] at hgone hcome ⊢
  intro node
  have hfirst := h node
  have hsecond := h' node
  rw [hgone, hcome] at hfirst
  omega

theorem Put.traded (h : Put key body d d' anchored) :
    Traded (d.view key).block.toList ((d.view key).added key body) d d' := by
  cases h with
  | @replaced pre post first last indent old hpre hfirst =>
      have hindent : Node.indent (.block key first old last) = indent := by
        simp [Node.indent, hfirst]
      intro node
      simp [View.added, view, View.indent, firstBlock?_append, firstBlock?_cons,
        firstBlock?_eq_none hpre, hindent, List.count_append, List.count_cons]
      omega
  | @inserted pre post line indent hkey hpre hanchor =>
      have hnone := firstBlock?_eq_none hkey
      intro node
      simp [View.added, view, View.indent, hnone, List.findSome?_append, findSome?_eq_none hpre,
        anchorOf, List.count_append, List.count_cons]
      omega
  | @appended pre post hkey hpart hpost =>
      have hnone := firstBlock?_eq_none hkey
      intro node
      simp [View.added, view, View.indent, hnone, findSome?_eq_none hpart, List.count_append,
        List.count_cons]
      omega

/-- The import lines that are put in, with the blank line after the first ones of all. -/
def importsCome (known fresh : List String) : Document :=
  fresh.map .directive ++ if known = [] ∧ fresh ≠ [] then [.text ""] else []

theorem Imported.traded {fresh : List String} (h : Imported fresh d d') :
    Traded [] (importsCome d.importKeys fresh) d d' := by
  cases h with
  | nothing hfresh =>
      subst hfresh
      intro node
      simp [importsCome]
  | @after pre post line hpost =>
      have hknown : importKeys (pre ++ .directive line :: post) ≠ [] := by
        intro hnil
        have hmem : normalizeImport line ∈ importKeys (pre ++ .directive line :: post) := by
          simp [Node.importKey?]
        simp [hnil] at hmem
      intro node
      rw [importsCome, if_neg fun h => hknown h.1]
      simp [List.count_append, List.count_cons]
      omega
  | top hfresh hd =>
      intro node
      simp [importsCome, hd, hfresh, List.count_append, List.count_cons]
      omega

theorem putBlocks_traded (hf : f.WellFormed) {blocks : List (String × String)}
    (hblocks : blocks ⊆ f.blocks) (hdistinct : (blocks.map Prod.fst).Nodup) (hd : d.Sound) :
    Traded (blocks.flatMap fun block => (d.view ⟨block.1, f.api⟩).block.toList)
      (blocks.flatMap fun block =>
        (d.view ⟨block.1, f.api⟩).added ⟨block.1, f.api⟩ block.2)
      d (putBlocks f.api d blocks).1 := by
  induction blocks generalizing d with
  | nil => exact .refl d
  | cons first blocks ih =>
      obtain ⟨hfirst, hrest⟩ := List.forall_mem_cons.mp hblocks
      obtain ⟨hnew, hdistinct⟩ := List.nodup_cons.mp hdistinct
      have hput := put_putBlock hd.faithful ⟨first.1, f.api⟩ first.2
      have hmiddle := ih hrest hdistinct (putBlock_sound hf hfirst hd)
      -- the other sections see what they saw before
      have hview : ∀ block ∈ blocks, (d.putBlock ⟨first.1, f.api⟩ first.2).1.view
          ⟨block.1, f.api⟩ = d.view ⟨block.1, f.api⟩ := by
        intro block hblock
        refine hput.view_of_ne fun heq => hnew (List.mem_map.mpr ⟨block, hblock, ?_⟩)
        exact congrArg BlockKey.part heq
      have hgone := List.flatMap_congr fun block hblock =>
        congrArg (fun v : View => v.block.toList) (hview block hblock)
      have hcome := List.flatMap_congr fun block hblock =>
        congrArg (fun v : View => v.added ⟨block.1, f.api⟩ block.2) (hview block hblock)
      rw [hgone, hcome] at hmiddle
      exact hput.traded.trans hmiddle

/-! ### The nodes after two merges -/

theorem map_normalizeImport_freshImports (known imports : List String) :
    (freshImports known imports).map normalizeImport = freshImports known imports := by
  calc (freshImports known imports).map normalizeImport
      = (freshImports known imports).map id := by
        refine List.map_congr_left fun key hkey => ?_
        obtain ⟨⟨line, -, rfl⟩, -, -⟩ := mem_freshImports.mp hkey
        exact normalizeImport_normalizeImport line
    _ = freshImports known imports := List.map_id _

theorem nodup_freshImports (known imports : List String) : (freshImports known imports).Nodup := by
  fun_induction freshImports known imports with
  | case1 => exact List.nodup_nil
  | case2 known line rest key hskip ih => exact ih
  | case3 known line rest key hnew ih =>
      refine List.nodup_cons.mpr ⟨fun hmem => ?_, ih⟩
      exact (mem_freshImports.mp hmem).2.2 List.mem_cons_self

/-- In which order imports are asked for matters to their order alone. -/
theorem perm_freshImports (known imports more : List String) :
    (freshImports known (imports ++ more)).Perm (freshImports known (more ++ imports)) := by
  rw [List.perm_ext_iff_of_nodup (nodup_freshImports _ _) (nodup_freshImports _ _)]
  intro key
  simp only [mem_freshImports, List.mem_append, or_comm]

theorem importsCome_append {known known' fresh : List String}
    (h : known' = [] ↔ known = [] ∧ fresh = []) (more : List String) :
    (importsCome known fresh ++ importsCome known' more).Perm
      (importsCome known (fresh ++ more)) := by
  rw [List.perm_iff_count]
  intro node
  by_cases hknown : known = [] <;> by_cases hfresh : fresh = [] <;>
    simp [importsCome, h, hknown, hfresh, List.count_append, List.count_cons]

theorem importsCome_perm {fresh more : List String} (known : List String)
    (h : fresh.Perm more) : (importsCome known fresh).Perm (importsCome known more) := by
  have hempty : fresh = [] ↔ more = [] :=
    ⟨fun hnil => (hnil ▸ h).nil_eq.symm, fun hnil => (hnil ▸ h).eq_nil⟩
  refine (h.map _).append ?_
  simp [hempty]

theorem mem_importKeys_merge (hf : f.WellFormed) (hd : d.Sound) (key : String) :
    key ∈ (d.merge f).1.importKeys ↔
      key ∈ d.importKeys ++ freshImports d.importKeys f.imports := by
  have hmerged : (d.merge f).1.Sound ∧ (key ∈ (d.merge f).1.importKeys ↔
      key ∈ d.importKeys ++ freshImports d.importKeys f.imports) := by
    refine merge_induction (motive := fun e => e.Sound ∧ (key ∈ e.importKeys ↔
      key ∈ d.importKeys ++ freshImports d.importKeys f.imports)) ?_ ?_
    · refine ⟨addImports_sound hf hd, ?_⟩
      rw [(imported_addImports d f.imports).mem_importKeys, map_normalizeImport_freshImports,
        List.mem_append]
    · rintro block hblock e ⟨he, hmem⟩
      refine ⟨putBlock_sound hf hblock he, ?_⟩
      rwa [(put_putBlock he.faithful _ _).importKeys]
  exact hmerged.2

/-- The blocks of a fragment that are there already. -/
def held (d : Document) (f : Fragment) : Document :=
  f.blocks.flatMap fun block => (d.view ⟨block.1, f.api⟩).block.toList

/-- What a fragment puts in beside its imports. -/
def supply (d : Document) (f : Fragment) : Document :=
  f.blocks.flatMap fun block => (d.view ⟨block.1, f.api⟩).added ⟨block.1, f.api⟩ block.2

theorem merge_traded (hf : f.WellFormed) (hd : d.Sound) :
    Traded (d.held f) (importsCome d.importKeys (freshImports d.importKeys f.imports) ++ d.supply f)
      d (d.merge f).1 := by
  have himported := (imported_addImports d f.imports).traded
  have hput := putBlocks_traded hf (List.Subset.refl _) hf.distinct (addImports_sound hf hd)
  simp only [view_addImports] at hput
  exact himported.trans hput

/-- A merge for another API leaves what a fragment sees of its own blocks. -/
theorem view_merge_of_ne (hf : f.WellFormed) (hd : d.Sound) (hapi : f.api ≠ g.api)
    (part : String) : (d.merge f).1.view ⟨part, g.api⟩ = d.view ⟨part, g.api⟩ :=
  view_merge_of_not_mem hf hd fun _ _ heq => hapi (congrArg BlockKey.api heq).symm

theorem merge_merge_traded (hf : f.WellFormed) (hg : g.WellFormed) (hd : d.Sound)
    (hapi : f.api ≠ g.api) :
    ∃ come, come.Perm (importsCome d.importKeys
        (freshImports d.importKeys (f.imports ++ g.imports)) ++ (d.supply f ++ d.supply g)) ∧
      Traded (d.held f ++ d.held g) come d ((d.merge f).1.merge g).1 := by
  have hfirst := merge_traded hf hd
  have hsecond := merge_traded hg (merge_sound hf hd)
  have hheld : (d.merge f).1.held g = d.held g := by
    simp only [held, view_merge_of_ne hf hd hapi]
  have hsupply : (d.merge f).1.supply g = d.supply g := by
    simp only [supply, view_merge_of_ne hf hd hapi]
  rw [hheld, hsupply, freshImports_congr (mem_importKeys_merge hf hd) g.imports] at hsecond
  refine ⟨_, ?_, hfirst.trans hsecond⟩
  have hempty : (d.merge f).1.importKeys = [] ↔
      d.importKeys = [] ∧ freshImports d.importKeys f.imports = [] := by
    rw [← List.append_eq_nil_iff, List.eq_nil_iff_forall_not_mem, List.eq_nil_iff_forall_not_mem]
    exact forall_congr' fun key => not_congr (mem_importKeys_merge hf hd key)
  have himports := importsCome_append hempty
    (freshImports (d.importKeys ++ freshImports d.importKeys f.imports) g.imports)
  rw [← freshImports_append] at himports
  rw [List.perm_iff_count] at himports ⊢
  intro node
  have hcount := himports node
  simp only [List.count_append] at hcount ⊢
  omega

/-- Both orders lead to the same nodes. -/
theorem merge_merge_perm (hf : f.WellFormed) (hg : g.WellFormed) (hd : d.Sound)
    (hapi : f.api ≠ g.api) :
    ((d.merge f).1.merge g).1.Perm ((d.merge g).1.merge f).1 := by
  obtain ⟨come, hcome, htraded⟩ := merge_merge_traded hf hg hd hapi
  obtain ⟨come', hcome', htraded'⟩ := merge_merge_traded hg hf hd hapi.symm
  refine htraded.perm htraded' List.perm_append_comm (hcome.trans (.trans ?_ hcome'.symm))
  exact (importsCome_perm _ (perm_freshImports _ _ _)).append List.perm_append_comm

end Traded

/-! ### What merges leave in order -/

/-- Anchors, lines that are not empty, and the blocks of other APIs. -/
def isSettled (apis : List String) : Node → Bool
  | .text line => line != ""
  | .directive _ => false
  | .anchor _ _ _ => true
  | .block key _ _ _ => !apis.contains key.api

section Settled

variable {apis : List String} {d d' : Document} {key : BlockKey} {body : String}
  {anchored : Bool} {f : Fragment}

theorem isSettled_makeBlock (h : key.api ∈ apis) (body indent : String) :
    isSettled apis (makeBlock key body indent) = false := by
  simp [makeBlock_eq, isSettled, h]

theorem Put.filter_settled (h : Put key body d d' anchored) (hapi : key.api ∈ apis) :
    d'.filter (isSettled apis) = d.filter (isSettled apis) := by
  have hblank : isSettled apis (.text "") = false := rfl
  have hnew := fun indent => isSettled_makeBlock hapi body indent
  cases h with
  | @replaced pre post first last indent old hpre hfirst =>
      have hold : isSettled apis (.block key first old last) = false := by simp [isSettled, hapi]
      simp [List.filter_append, hold, hnew]
  | inserted => simp [List.filter_append, List.filter_cons, hblank, hnew]
  | appended => simp [List.filter_append, hblank, hnew]

theorem Imported.filter_settled {fresh : List String} (h : Imported fresh d d') :
    d'.filter (isSettled apis) = d.filter (isSettled apis) := by
  have hblank : isSettled apis (.text "") = false := rfl
  have hfresh : (fresh.map Node.directive).filter (isSettled apis) = [] := by
    simp [List.filter_eq_nil_iff, isSettled]
  cases h with
  | nothing => rfl
  | after => simp [List.filter_append, List.filter_cons, hfresh]
  | top => simp [List.filter_append, hfresh, hblank]

theorem filter_settled_merge (hf : f.WellFormed) (hd : d.Sound) (hapi : f.api ∈ apis) :
    (d.merge f).1.filter (isSettled apis) = d.filter (isSettled apis) := by
  have hmerged : (d.merge f).1.Sound ∧
      (d.merge f).1.filter (isSettled apis) = d.filter (isSettled apis) := by
    refine merge_induction (motive := fun e => e.Sound ∧
      e.filter (isSettled apis) = d.filter (isSettled apis)) ?_ ?_
    · exact ⟨addImports_sound hf hd, (imported_addImports d f.imports).filter_settled⟩
    · rintro block hblock e ⟨he, hsame⟩
      have hput := put_putBlock he.faithful ⟨block.1, f.api⟩ block.2
      exact ⟨putBlock_sound hf hblock he, (hput.filter_settled hapi).trans hsame⟩
  exact hmerged.2

end Settled

/-! ### Fragments that are there already -/

/-- The blocks of `f` are there, whatever they hold, and its imports too. -/
structure Knows (f : Fragment) (d : Document) : Prop where
  blocks : ∀ block ∈ f.blocks, ⟨block.1, f.api⟩ ∈ d.blockKeys
  imports : ∀ line ∈ f.imports, normalizeImport line = "" ∨ normalizeImport line ∈ d.importKeys

/-- The nodes stand for the same keys, and only first blocks of a key differ. -/
structure Refilled (d d' : Document) : Prop where
  keys : d'.map Node.key? = d.map Node.key?
  first : ∀ i, d'[i]? ≠ d[i]? → ∃ key, d'.findBlock? key = some i

section Refilled

variable {d d' d'' : Document} {key : BlockKey} {body : String} {anchored : Bool} {f : Fragment}

theorem Refilled.refl (d : Document) : Refilled d d :=
  ⟨rfl, fun _ h => absurd rfl h⟩

theorem Refilled.findBlock? (h : Refilled d d') (key : BlockKey) :
    d'.findBlock? key = d.findBlock? key := by
  rw [findBlock?_eq, findBlock?_eq, h.keys]

theorem Refilled.trans (h : Refilled d d') (h' : Refilled d' d'') : Refilled d d'' := by
  refine ⟨h'.keys.trans h.keys, fun i hne => ?_⟩
  by_cases hmiddle : d''[i]? = d'[i]?
  · obtain ⟨key, hkey⟩ := h.first i (hmiddle ▸ hne)
    exact ⟨key, (h'.findBlock? key).trans hkey⟩
  · exact h'.first i hmiddle

/-- Where the blocks are the same, so is the whole. -/
theorem Refilled.eq_of_blocks (h : Refilled d d') (h' : Refilled d d'')
    (hblocks : ∀ key, d'.blockOf? key = d''.blockOf? key) : d' = d'' := by
  have hfirst : ∀ i key, d'.findBlock? key = some i → d'[i]? = d''[i]? := by
    intro i key hkey
    have hkey' : d''.findBlock? key = some i := by rw [h'.findBlock?, ← h.findBlock?, hkey]
    have hsame := hblocks key
    rwa [blockOf?, blockOf?, hkey, hkey'] at hsame
  refine List.ext_getElem? fun i => ?_
  by_cases hleft : d'[i]? = d[i]?
  · by_cases hright : d''[i]? = d[i]?
    · rw [hleft, hright]
    · obtain ⟨key, hkey⟩ := h'.first i hright
      exact hfirst i key (by rw [h.findBlock?, ← h'.findBlock?, hkey])
  · obtain ⟨key, hkey⟩ := h.first i hleft
    exact hfirst i key hkey

theorem Put.refilled (h : Put key body d d' anchored) (hkey : key ∈ d.blockKeys) :
    Refilled d d' := by
  cases h with
  | @replaced pre post first last indent old hpre hfirst =>
      have hnone : (pre.map Node.key?).findIdx? (· == some key) = none := by
        rw [List.findIdx?_eq_none_iff]
        intro view hview
        obtain ⟨node, hnode, rfl⟩ := List.mem_map.mp hview
        rw [blockKeys_eq] at hpre
        simpa using fun hsome => hpre (List.mem_filterMap.mpr ⟨node, hnode, hsome⟩)
      refine ⟨by simp, fun i hne => ⟨key, ?_⟩⟩
      -- the nodes before and after the block are the same in both
      obtain rfl : i = pre.length := by
        by_contra hother
        refine hne ?_
        rcases Nat.lt_or_gt_of_ne hother with hlt | hgt
        · rw [List.getElem?_append_left hlt, List.getElem?_append_left hlt]
        · obtain ⟨n, rfl⟩ := Nat.exists_eq_add_of_lt hgt
          rw [List.getElem?_append_right (by omega), List.getElem?_append_right (by omega)]
          have hsub : pre.length + n + 1 - pre.length = n + 1 := by omega
          simp [hsub]
      rw [findBlock?_eq, List.map_append, List.findIdx?_append, hnone, List.map_cons,
        Node.key?_makeBlock, List.findIdx?_cons]
      simp
  | inserted hnot => exact absurd hkey hnot
  | appended hnot => exact absurd hkey hnot

theorem Refilled.mem_blockKeys (h : Refilled d d') (key : BlockKey) :
    key ∈ d'.blockKeys ↔ key ∈ d.blockKeys := by
  have hkeys : ∀ e : Document, e.blockKeys = (e.map Node.key?).filterMap id := by
    intro e
    rw [blockKeys_eq, List.filterMap_map]
    rfl
  rw [hkeys, hkeys, h.keys]

theorem refilled_merge (hf : f.WellFormed) (hd : d.Sound) (h : Knows f d) :
    Refilled d (d.merge f).1 := by
  have hmerged : (d.merge f).1.Sound ∧ Refilled d (d.merge f).1 := by
    refine merge_induction (motive := fun e => e.Sound ∧ Refilled d e) ?_ ?_
    · rw [addImports_of_known h.imports]
      exact ⟨hd, .refl d⟩
    · rintro block hblock e ⟨he, hrefilled⟩
      have hput := put_putBlock he.faithful ⟨block.1, f.api⟩ block.2
      refine ⟨putBlock_sound hf hblock he, hrefilled.trans (hput.refilled ?_)⟩
      exact (hrefilled.mem_blockKeys _).mpr (h.blocks block hblock)
  exact hmerged.2

theorem Knows.merge {g : Fragment} (h : Knows g d) (hf : f.WellFormed) (hd : d.Sound)
    (hknown : Knows f d) : Knows g (d.merge f).1 where
  blocks block hblock :=
    ((refilled_merge hf hd hknown).mem_blockKeys _).mpr (h.blocks block hblock)
  imports line hline := (h.imports line hline).imp_right fun hmem =>
    (mem_importKeys_merge hf hd _).mpr (List.mem_append_left _ hmem)

/-- Where both fragments are known, both orders lead to the same document. -/
theorem merge_merge_of_knows {g : Fragment} (hf : f.WellFormed) (hg : g.WellFormed) (hd : d.Sound)
    (hfd : Knows f d) (hgd : Knows g d)
    (hblocks : ∀ key, ((d.merge f).1.merge g).1.blockOf? key =
      ((d.merge g).1.merge f).1.blockOf? key) :
    ((d.merge f).1.merge g).1 = ((d.merge g).1.merge f).1 := by
  have hfirst := refilled_merge hf hd hfd
  have hsecond := refilled_merge hg (merge_sound hf hd) (hgd.merge hf hd hfd)
  have hfirst' := refilled_merge hg hd hgd
  have hsecond' := refilled_merge hf (merge_sound hg hd) (hfd.merge hg hd hgd)
  exact (hfirst.trans hsecond).eq_of_blocks (hfirst'.trans hsecond') hblocks

end Refilled

/-! ### Blocks after two merges -/

section Blocks

variable {d : Document} {f g : Fragment}

theorem view_merge_merge_self (hf : f.WellFormed) (hg : g.WellFormed) (hd : d.Sound)
    (hapi : f.api ≠ g.api) {block : String × String} (hblock : block ∈ f.blocks) :
    ((d.merge f).1.merge g).1.view ⟨block.1, f.api⟩ =
      ((d.merge g).1.merge f).1.view ⟨block.1, f.api⟩ := by
  rw [view_merge_of_ne hg (merge_sound hf hd) hapi.symm, view_merge hf hd hblock,
    view_merge hf (merge_sound hg hd) hblock, view_merge_of_ne hg hd hapi.symm]

/-- What any key sees in the end does not depend on the order. -/
theorem view_merge_merge (hf : f.WellFormed) (hg : g.WellFormed) (hd : d.Sound)
    (hapi : f.api ≠ g.api) (key : BlockKey) :
    ((d.merge f).1.merge g).1.view key = ((d.merge g).1.merge f).1.view key := by
  by_cases hfkey : ∃ block ∈ f.blocks, key = ⟨block.1, f.api⟩
  · obtain ⟨block, hblock, rfl⟩ := hfkey
    exact view_merge_merge_self hf hg hd hapi hblock
  · by_cases hgkey : ∃ block ∈ g.blocks, key = ⟨block.1, g.api⟩
    · obtain ⟨block, hblock, rfl⟩ := hgkey
      exact (view_merge_merge_self hg hf hd hapi.symm hblock).symm
    · simp only [not_exists, not_and] at hfkey hgkey
      rw [view_merge_of_not_mem hg (merge_sound hf hd) hgkey, view_merge_of_not_mem hf hd hfkey,
        view_merge_of_not_mem hf (merge_sound hg hd) hfkey, view_merge_of_not_mem hg hd hgkey]

theorem blockOf?_merge_merge (hf : f.WellFormed) (hg : g.WellFormed) (hd : d.Sound)
    (hapi : f.api ≠ g.api) (key : BlockKey) :
    ((d.merge f).1.merge g).1.blockOf? key = ((d.merge g).1.merge f).1.blockOf? key := by
  rw [blockOf?_eq, blockOf?_eq]
  exact congrArg View.block (view_merge_merge hf hg hd hapi key)

end Blocks

end Document

/-! ### Calls in both orders -/

/-- Two texts that are the same but for the places of what `f` and `g` put into `source`. -/
structure Exchanged (f g : Fragment) (source text other : String) : Prop where
  blocks : ∀ key, (Document.parse text).blockOf? key = (Document.parse other).blockOf? key
  imports : ∀ key, key ∈ (Document.parse text).importKeys ↔ key ∈ (Document.parse other).importKeys
  settled : (Document.parse text).filter (Document.isSettled [f.api, g.api]) =
    (Document.parse other).filter (Document.isSettled [f.api, g.api])
  lines : (Text.splitLines text).Perm (Text.splitLines other)
  same : Document.Knows f (Document.parse source) → Document.Knows g (Document.parse source) →
    text = other

theorem exchanged_mergeText {f g : Fragment} (hf : f.WellFormed) (hg : g.WellFormed)
    (hapi : f.api ≠ g.api) {existing : Option String}
    (hskeleton : existing = none → f.skeleton = g.skeleton) :
    Exchanged f g (existing.getD f.skeleton) (mergeText (some (mergeText existing f).1) g).1
      (mergeText (some (mergeText existing g).1) f).1 := by
  have hsource : existing.getD g.skeleton = existing.getD f.skeleton := by
    cases existing with
    | none => exact (hskeleton rfl).symm
    | some text => rfl
  have hd := Document.sound_parse (existing.getD f.skeleton)
  have htext : Document.parse (mergeText (some (mergeText existing f).1) g).1 =
      (((Document.parse (existing.getD f.skeleton)).merge f).1.merge g).1 := by
    rw [Document.parse_mergeText hg, Option.getD_some, Document.parse_mergeText hf]
  have hother : Document.parse (mergeText (some (mergeText existing g).1) f).1 =
      (((Document.parse (existing.getD f.skeleton)).merge g).1.merge f).1 := by
    rw [Document.parse_mergeText hf, Option.getD_some, Document.parse_mergeText hg, hsource]
  have hperm := Document.merge_merge_perm hf hg hd hapi
  have hblocks := Document.blockOf?_merge_merge hf hg hd hapi
  refine ⟨?_, ?_, ?_, ?_, fun hfd hgd => ?_⟩
  · rw [htext, hother]
    exact hblocks
  · intro key
    rw [htext, hother, Document.importKeys_eq, Document.importKeys_eq]
    exact (hperm.filterMap _).mem_iff
  · have hmem : f.api ∈ [f.api, g.api] ∧ g.api ∈ [f.api, g.api] := by simp
    rw [htext, hother, Document.filter_settled_merge hg (Document.merge_sound hf hd) hmem.2,
      Document.filter_settled_merge hf hd hmem.1,
      Document.filter_settled_merge hf (Document.merge_sound hg hd) hmem.1,
      Document.filter_settled_merge hg hd hmem.2]
  · rw [← Document.lines_parse, ← Document.lines_parse, htext, hother]
    exact hperm.flatMap_right _
  · have hsame := Document.merge_merge_of_knows hf hg hd hfd hgd hblocks
    rw [← htext, ← hother] at hsame
    have hrender := congrArg Document.render hsame
    rwa [Document.render_parse, Document.render_parse] at hrender

/-- Calls for two APIs can be made in either order. On a disk where the file is writable both orders
succeed, and what is read afterwards are the two texts. -/
theorem patchAll_exchanged {f g : Fragment} (hf : f.WellFormed) (hg : g.WellFormed)
    (hapi : f.api ≠ g.api) {existing : Option String}
    (hskeleton : existing = none → f.skeleton = g.skeleton) :
    ∃ text other, mergeAll existing [f, g] = some text ∧ mergeAll existing [g, f] = some other ∧
      Exchanged f g (existing.getD f.skeleton) text other ∧
      ∀ (mode : WriteMode) (place : Location) (disk : Disk),
        disk.textIfFile place = .ok existing → disk.Writable mode place →
          ((patchAll mode place disk [f, g]).1.all (·.saved.isOk) = true ∧
            (patchAll mode place disk [f, g]).2.textIfFile place = .ok (some text)) ∧
          ((patchAll mode place disk [g, f]).1.all (·.saved.isOk) = true ∧
            (patchAll mode place disk [g, f]).2.textIfFile place = .ok (some other)) := by
  refine ⟨_, _, rfl, rfl, exchanged_mergeText hf hg hapi hskeleton,
    fun mode place disk htext hdisk => ?_⟩
  have hcalls : ∀ fs : List Fragment, (∀ f ∈ fs, f.WellFormed) →
      (patchAll mode place disk fs).1.all (·.saved.isOk) = true ∧
        (patchAll mode place disk fs).2.textIfFile place = .ok (mergeAll existing fs) := by
    intro fs hfs
    obtain ⟨outcomes, disk', hall, -, hreads, hsaved, -⟩ := patchAll_writable hfs htext hdisk
    rw [hall]
    exact ⟨List.all_eq_true.mpr hsaved, hreads⟩
  have hboth : ∀ h ∈ [f, g], h.WellFormed :=
    List.forall_mem_cons.mpr ⟨hf, List.forall_mem_singleton.mpr hg⟩
  have hboth' : ∀ h ∈ [g, f], h.WellFormed :=
    List.forall_mem_cons.mpr ⟨hg, List.forall_mem_singleton.mpr hf⟩
  exact ⟨hcalls [f, g] hboth, hcalls [g, f] hboth'⟩

/-- Into a new file the one that is called first brings the skeleton. -/
theorem patchAll_exchanged_newFile :
    (callFragment "users").WellFormed ∧ (callFragment "orders").WellFormed ∧
      (callFragment "users").api ≠ (callFragment "orders").api ∧
      (callFragment "users").skeleton = (callFragment "orders").skeleton ∧
      ∃ text other, mergeAll none [callFragment "users", callFragment "orders"] = some text ∧
        mergeAll none [callFragment "orders", callFragment "users"] = some other ∧
        Exchanged (callFragment "users") (callFragment "orders") callsSkeleton text other ∧
        (patchAll .replace callsPlace (.emptyAt [])
          [callFragment "users", callFragment "orders"]).2.textIfFile callsPlace =
            .ok (some text) := by
  have husers : (callFragment "users").WellFormed := by decide +kernel
  have horders : (callFragment "orders").WellFormed := by decide +kernel
  have hapi : (callFragment "users").api ≠ (callFragment "orders").api := by decide
  have hskeleton : (callFragment "users").skeleton = (callFragment "orders").skeleton := rfl
  have habsent : (none : Option String) = none →
      (callFragment "users").skeleton = (callFragment "orders").skeleton := fun _ => hskeleton
  obtain ⟨text, other, htext, hother, hexchanged, hdisk⟩ :=
    patchAll_exchanged husers horders hapi habsent
  obtain ⟨⟨-, hreads⟩, -⟩ :=
    hdisk .replace callsPlace (.emptyAt []) textIfFile_emptyAt (writable_emptyAt .replace)
  exact ⟨husers, horders, hapi, hskeleton, text, other, htext, hother, hexchanged, hreads⟩

end DartScaffold.Aggregate
