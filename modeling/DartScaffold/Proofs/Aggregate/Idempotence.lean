import DartScaffold.Proofs.Aggregate.Run

/-!
Merging again changes nothing. A document holds a fragment when it has the imports of the fragment and
the first block of each of its sections is the one that the fragment makes. A merge brings this about,
merges for other APIs keep it, and a merge into a document that holds the fragment already gives the
same document.
-/

namespace DartScaffold.Aggregate

open Disk (Location WriteMode)

namespace Document

def firstBlock? (d : Document) (key : BlockKey) : Option Node :=
  d.find? fun node => node.key? == some key

/-- What `f` puts in is there. -/
structure Holds (f : Fragment) (d : Document) : Prop where
  imports : ∀ line ∈ f.imports, normalizeImport line = "" ∨ normalizeImport line ∈ d.importKeys
  blocks : ∀ block ∈ f.blocks, ∃ indent, IsIndent indent ∧
    d.firstBlock? ⟨block.1, f.api⟩ = some (makeBlock ⟨block.1, f.api⟩ block.2 indent)

/-! ### First blocks -/

theorem firstBlock?_eq_none {key : BlockKey} {d : Document} (h : key ∉ d.blockKeys) :
    d.firstBlock? key = none := by
  rw [firstBlock?, List.find?_eq_none]
  intro node hnode hkey
  apply h
  rw [blockKeys_eq]
  exact List.mem_filterMap.mpr ⟨node, hnode, by simpa using hkey⟩

theorem firstBlock?_cons (node : Node) (d : Document) (key : BlockKey) :
    firstBlock? (node :: d) key = if node.key? = some key then some node else firstBlock? d key := by
  rw [firstBlock?, firstBlock?, List.find?_cons]
  by_cases h : node.key? = some key
  · simp [h]
  · have hbeq : (node.key? == some key) = false := by simpa using h
    simp [h, hbeq]

theorem firstBlock?_append (d e : Document) (key : BlockKey) :
    firstBlock? (d ++ e) key = (firstBlock? d key).or (firstBlock? e key) :=
  List.find?_append

theorem Put.firstBlock?_self {key : BlockKey} {body : String} {d d' : Document} {anchored : Bool}
    (h : Put key body d d' anchored) :
    ∃ indent, IsIndent indent ∧ d'.firstBlock? key = some (makeBlock key body indent) := by
  cases h with
  | @replaced pre post first last indent old hpre hfirst =>
      refine ⟨indent, isIndent_of_begin? hfirst, ?_⟩
      simp [firstBlock?_append, firstBlock?_cons, firstBlock?_eq_none hpre]
  | @inserted pre post line indent hkey hpre hanchor =>
      refine ⟨indent, isIndent_of_anchor? hanchor, ?_⟩
      have hpre' : key ∉ blockKeys pre := fun h => hkey (by simp [h])
      simp [firstBlock?_append, firstBlock?_cons, firstBlock?_eq_none hpre']
  | @appended pre post hkey hpart hpost =>
      refine ⟨"", by simp [IsIndent], ?_⟩
      have hpre' : key ∉ blockKeys pre := fun h => hkey (by simp [h])
      simp [firstBlock?_append, firstBlock?_cons, firstBlock?_eq_none hpre']

theorem Put.firstBlock?_of_ne {key other : BlockKey} {body : String} {d d' : Document}
    {anchored : Bool} (h : Put key body d d' anchored) (hne : other ≠ key) :
    d'.firstBlock? other = d.firstBlock? other := by
  have hkey : ¬ key = other := fun heq => hne heq.symm
  cases h <;> simp [firstBlock?_append, firstBlock?_cons, hkey]

theorem Put.importKeys {key : BlockKey} {body : String} {d d' : Document} {anchored : Bool}
    (h : Put key body d d' anchored) : d'.importKeys = d.importKeys := by
  cases h <;>
    · rw [importKeys_append, importKeys_append]
      rfl

theorem firstBlock?_directives (fresh : List String) (d : Document) (key : BlockKey) :
    firstBlock? (fresh.map .directive ++ d) key = firstBlock? d key := by
  rw [firstBlock?_append, firstBlock?_eq_none, Option.none_or]
  simp [blockKeys_eq, List.filterMap_map, Function.comp_def]

theorem Imported.firstBlock? {fresh : List String} {d d' : Document} (h : Imported fresh d d')
    (key : BlockKey) : d'.firstBlock? key = d.firstBlock? key := by
  cases h with
  | nothing => rfl
  | after _ =>
      rw [firstBlock?_append, firstBlock?_append, firstBlock?_cons, firstBlock?_cons,
        firstBlock?_directives]
  | top _ _ => rw [firstBlock?_directives, firstBlock?_cons]; rfl

/-! ### What a merge brings about -/

section Merge

variable {f g : Fragment} {d : Document}

theorem importKeys_addImports (d : Document) (imports : List String) {line : String}
    (hline : line ∈ imports) (hne : normalizeImport line ≠ "") :
    normalizeImport line ∈ (d.addImports imports).1.importKeys := by
  rw [(imported_addImports d imports).mem_importKeys]
  by_cases hknown : normalizeImport line ∈ d.importKeys
  · exact .inl hknown
  · refine .inr (List.mem_map.mpr ⟨normalizeImport line, ?_, normalizeImport_normalizeImport line⟩)
    exact mem_freshImports.mpr ⟨⟨line, hline, rfl⟩, hne, hknown⟩

theorem firstBlock?_putBlocks_of_not_mem (hf : f.WellFormed) {key : BlockKey}
    {blocks : List (String × String)} (hblocks : blocks ⊆ f.blocks)
    (hkey : ∀ block ∈ blocks, key ≠ ⟨block.1, f.api⟩) (hd : d.Sound) :
    (putBlocks f.api d blocks).1.firstBlock? key = d.firstBlock? key := by
  have hput : (putBlocks f.api d blocks).1.Sound ∧
      (putBlocks f.api d blocks).1.firstBlock? key = d.firstBlock? key := by
    refine putBlocks_induction
      (motive := fun e => e.Sound ∧ e.firstBlock? key = d.firstBlock? key) ⟨hd, rfl⟩ ?_
    rintro block hblock e ⟨he, hsame⟩
    have hput := put_putBlock he.faithful ⟨block.1, f.api⟩ block.2
    refine ⟨putBlock_sound hf (hblocks hblock) he, ?_⟩
    rw [hput.firstBlock?_of_ne (hkey block hblock), hsame]
  exact hput.2

theorem firstBlock?_putBlocks (hf : f.WellFormed) {blocks : List (String × String)}
    (hblocks : blocks ⊆ f.blocks) (hdistinct : (blocks.map Prod.fst).Nodup) (hd : d.Sound) :
    ∀ block ∈ blocks, ∃ indent, IsIndent indent ∧
      (putBlocks f.api d blocks).1.firstBlock? ⟨block.1, f.api⟩ =
        some (makeBlock ⟨block.1, f.api⟩ block.2 indent) := by
  induction blocks generalizing d with
  | nil => simp
  | cons first blocks ih =>
      obtain ⟨hfirst, hrest⟩ := List.forall_mem_cons.mp hblocks
      obtain ⟨hnew, hdistinct⟩ := List.nodup_cons.mp hdistinct
      have hmiddle := putBlock_sound hf hfirst hd
      intro block hblock
      rw [putBlocks]
      rcases List.mem_cons.mp hblock with rfl | hblock
      · have hput := put_putBlock hd.faithful ⟨block.1, f.api⟩ block.2
        obtain ⟨indent, hindent, hself⟩ := hput.firstBlock?_self
        refine ⟨indent, hindent, ?_⟩
        -- the other sections have other keys
        rw [← hself]
        refine firstBlock?_putBlocks_of_not_mem hf hrest (fun other hother heq => ?_) hmiddle
        exact hnew (List.mem_map.mpr ⟨other, hother, (congrArg BlockKey.part heq).symm⟩)
      · exact ih hrest hdistinct hmiddle block hblock

theorem holds_merge (hf : f.WellFormed) (hd : d.Sound) : Holds f (d.merge f).1 where
  imports := by
    intro line hline
    by_cases hne : normalizeImport line = ""
    · exact .inl hne
    · refine .inr (merge_induction (f := f)
        (motive := fun e => normalizeImport line ∈ e.importKeys ∧ e.Sound) ?_ ?_).1
      · exact ⟨importKeys_addImports d f.imports hline hne, addImports_sound hf hd⟩
      · rintro block hblock e ⟨hmem, he⟩
        refine ⟨?_, putBlock_sound hf hblock he⟩
        rwa [(put_putBlock he.faithful _ _).importKeys]
  blocks := firstBlock?_putBlocks hf (List.Subset.refl _) hf.distinct (addImports_sound hf hd)

/-- A merge for another API keeps what is there. -/
theorem Holds.merge (h : Holds g d) (hf : f.WellFormed) (hd : d.Sound) (hapi : f.api ≠ g.api) :
    Holds g (d.merge f).1 := by
  have hmerged : (d.merge f).1.Sound ∧ Holds g (d.merge f).1 := by
    refine merge_induction (motive := fun e => e.Sound ∧ Holds g e) ?_ ?_
    · refine ⟨addImports_sound hf hd, fun line hline => ?_, fun block hblock => ?_⟩
      · rw [(imported_addImports d f.imports).mem_importKeys]
        exact (h.imports line hline).imp_right .inl
      · rw [(imported_addImports d f.imports).firstBlock?]
        exact h.blocks block hblock
    · rintro block hblock e ⟨he, hholds⟩
      have hput := put_putBlock he.faithful ⟨block.1, f.api⟩ block.2
      refine ⟨putBlock_sound hf hblock he, fun line hline => ?_, fun other hother => ?_⟩
      · rw [hput.importKeys]
        exact hholds.imports line hline
      · rw [hput.firstBlock?_of_ne fun heq => hapi (congrArg BlockKey.api heq).symm]
        exact hholds.blocks other hother
  exact hmerged.2

/-! ### What a second merge finds -/

theorem putBlock_of_firstBlock? {key : BlockKey} {body indent : String} (hkey : key.Valid)
    (hindent : IsIndent indent) (h : d.firstBlock? key = some (makeBlock key body indent)) :
    d.putBlock key body = (d, true) := by
  obtain ⟨-, pre, post, rfl, hpre⟩ := List.find?_eq_some_iff_append.mp h
  have hnone : key ∉ blockKeys pre := by
    rw [blockKeys_eq]
    intro hmem
    obtain ⟨node, hnode, hview⟩ := List.mem_filterMap.mp hmem
    simpa [hview] using hpre node hnode
  have hreplace := replaceBlock?_append hnone (begin?_beginMarker hindent hkey) body
    (indent ++ endMarker key.part key.api) (blockBody body) post
  rw [← makeBlock_eq] at hreplace
  rw [putBlock, upsert, hreplace]

theorem addImports_of_known {imports : List String}
    (h : ∀ line ∈ imports, normalizeImport line = "" ∨ normalizeImport line ∈ d.importKeys) :
    (d.addImports imports).1 = d := by
  refine addImports_eq_self (List.eq_nil_iff_forall_not_mem.mpr fun key hkey => ?_)
  obtain ⟨⟨line, hline, rfl⟩, hne, hnew⟩ := mem_freshImports.mp hkey
  exact (h line hline).elim hne hnew

theorem putBlocks_of_holds (hf : f.WellFormed) (h : Holds f d) {blocks : List (String × String)}
    (hblocks : blocks ⊆ f.blocks) : putBlocks f.api d blocks = (d, []) := by
  induction blocks with
  | nil => rfl
  | cons first blocks ih =>
      obtain ⟨hfirst, hrest⟩ := List.forall_mem_cons.mp hblocks
      obtain ⟨indent, hindent, hthere⟩ := h.blocks first hfirst
      rw [putBlocks, putBlock_of_firstBlock? (hf.valid hfirst) hindent hthere]
      simp only [ih hrest, if_true]

theorem merge_of_holds (hf : f.WellFormed) (h : Holds f d) : d.merge f = (d, []) := by
  rw [Document.merge, addImports_of_known h.imports]
  exact putBlocks_of_holds hf h (List.Subset.refl _)

theorem mergeText_of_holds (hf : f.WellFormed) {text : String} (h : Holds f (parse text)) :
    mergeText (some text) f = (text, []) := by
  simp [mergeText, merge_of_holds hf h]

end Merge

end Document

/-! ### Whole passes -/

section Pass

variable {f g : Fragment} {fs : List Fragment}

theorem holds_mergeAll_of_ne (hfs : ∀ f ∈ fs, f.WellFormed) (hapi : ∀ f ∈ fs, f.api ≠ g.api)
    {text merged : String} (h : Document.Holds g (Document.parse text))
    (hmerged : mergeAll (some text) fs = some merged) :
    Document.Holds g (Document.parse merged) := by
  induction fs generalizing text with
  | nil =>
      obtain rfl : text = merged := by simpa [mergeAll] using hmerged
      exact h
  | cons f fs ih =>
      obtain ⟨hf, hfs⟩ := List.forall_mem_cons.mp hfs
      obtain ⟨hne, hapi⟩ := List.forall_mem_cons.mp hapi
      refine ih hfs hapi ?_ hmerged
      rw [Document.parse_mergeText hf]
      exact h.merge hf (Document.sound_parse text) hne

/-- After a pass the file has what every one of the fragments puts in. -/
theorem holds_mergeAll (hfs : ∀ f ∈ fs, f.WellFormed) (hapis : (fs.map Fragment.api).Nodup)
    {existing : Option String} {merged : String} (hmerged : mergeAll existing fs = some merged) :
    ∀ f ∈ fs, Document.Holds f (Document.parse merged) := by
  induction fs generalizing existing with
  | nil => simp
  | cons first fs ih =>
      obtain ⟨hfirst, hrest⟩ := List.forall_mem_cons.mp hfs
      obtain ⟨hnew, hapis⟩ := List.nodup_cons.mp hapis
      intro f hf
      rcases List.mem_cons.mp hf with rfl | hf
      · -- the other APIs keep what this one put in
        have hheld : Document.Holds f (Document.parse (mergeText existing f).1) := by
          rw [Document.parse_mergeText hfirst]
          exact Document.holds_merge hfirst (Document.sound_parse _)
        refine holds_mergeAll_of_ne hrest (fun g hg heq => ?_) hheld hmerged
        exact hnew (List.mem_map.mpr ⟨g, hg, heq⟩)
      · exact ih hrest hapis hmerged f hf

theorem mergeAll_of_holds (hfs : ∀ f ∈ fs, f.WellFormed) {text : String}
    (h : ∀ f ∈ fs, Document.Holds f (Document.parse text)) :
    mergeAll (some text) fs = some text := by
  induction fs with
  | nil => rfl
  | cons f fs ih =>
      obtain ⟨hf, hfs⟩ := List.forall_mem_cons.mp hfs
      obtain ⟨hheld, h⟩ := List.forall_mem_cons.mp h
      rw [mergeAll, Document.mergeText_of_holds hf hheld]
      exact ih hfs h

theorem patchAll_of_holds {disk : Disk} {place : Location} {text : String}
    (htext : disk.textIfFile place = .ok (some text)) (hfs : ∀ f ∈ fs, f.WellFormed)
    (h : ∀ f ∈ fs, Document.Holds f (Document.parse text)) (mode : WriteMode) :
    ∃ outcomes, patchAll mode place disk fs = (outcomes, disk) ∧ ∀ outcome ∈ outcomes,
      outcome.warnings = [] ∧ ∃ saved, outcome.saved = .ok saved ∧ saved.changed = false := by
  induction fs with
  | nil => exact ⟨[], rfl, by simp⟩
  | cons f fs ih =>
      obtain ⟨hf, hfs⟩ := List.forall_mem_cons.mp hfs
      obtain ⟨hheld, h⟩ := List.forall_mem_cons.mp h
      obtain ⟨outcomes, hrest, hall⟩ := ih hfs h
      obtain ⟨saved, hsave, hchanged⟩ := Disk.save_of_same htext mode
      have hpatch : patch disk mode place (.same f) = ([], .ok saved, disk) := by
        rw [patch_eq htext, Document.mergeText_of_holds hf hheld, hsave]
        rfl
      refine ⟨⟨[], .ok saved⟩ :: outcomes, ?_, ?_⟩
      · simp only [patchAll, hpatch, hrest]
      · intro outcome houtcome
        rcases List.mem_cons.mp houtcome with rfl | houtcome
        · exact ⟨rfl, saved, rfl, hchanged⟩
        · exact hall outcome houtcome

/-- A second pass over the same fragments leaves the text as it is, and on a disk where the file is
writable it leaves the whole disk as it is, changes no file and warns of nothing. -/
theorem patchAll_idempotent (hfs : ∀ f ∈ fs, f.WellFormed) (hapis : (fs.map Fragment.api).Nodup)
    (existing : Option String) :
    mergeAll (mergeAll existing fs) fs = mergeAll existing fs ∧
      ∀ (mode : WriteMode) (place : Location) (disk : Disk),
        disk.textIfFile place = .ok existing → disk.Writable mode place →
          ∃ first again disk', patchAll mode place disk fs = (first, disk') ∧
            (∀ outcome ∈ first, outcome.saved.isOk = true) ∧
            patchAll mode place disk' fs = (again, disk') ∧
            disk'.textIfFile place = .ok (mergeAll existing fs) ∧
            ∀ outcome ∈ again, outcome.warnings = [] ∧
              ∃ saved, outcome.saved = .ok saved ∧ saved.changed = false := by
  cases fs with
  | nil =>
      refine ⟨rfl, fun mode place disk htext _ => ?_⟩
      exact ⟨[], [], disk, rfl, by simp, rfl, htext, by simp⟩
  | cons f fs =>
      obtain ⟨merged, hmerged⟩ := mergeAll_some (mergeText existing f).1 fs
      have hmerged' : mergeAll existing (f :: fs) = some merged := hmerged
      -- what the first pass leaves holds every fragment, and so the second has nothing to do
      have hheld := holds_mergeAll hfs hapis hmerged'
      rw [hmerged']
      refine ⟨mergeAll_of_holds hfs hheld, fun mode place disk htext hdisk => ?_⟩
      obtain ⟨first, disk', hpass, -, hreads, hsaved, -⟩ := patchAll_writable hfs htext hdisk
      rw [hmerged'] at hreads
      obtain ⟨again, hagain, hall⟩ := patchAll_of_holds hreads hfs hheld mode
      exact ⟨first, again, disk', hpass, hsaved, hagain, hreads, hall⟩

theorem patchAll_idempotent_twoCalls :
    (∀ f ∈ [callFragment "users", callFragment "orders"], f.WellFormed) ∧
      ([callFragment "users", callFragment "orders"].map Fragment.api).Nodup ∧
      mergeAll (mergeAll none [callFragment "users", callFragment "orders"])
          [callFragment "users", callFragment "orders"] =
        mergeAll none [callFragment "users", callFragment "orders"] ∧
      ∃ again disk, (patchAll .replace callsPlace (.emptyAt [])
          [callFragment "users", callFragment "orders"]).2 = disk ∧
        patchAll .replace callsPlace disk [callFragment "users", callFragment "orders"] =
          (again, disk) := by
  have hfs : ∀ f ∈ [callFragment "users", callFragment "orders"], f.WellFormed := by
    decide +kernel
  have hapis : ([callFragment "users", callFragment "orders"].map Fragment.api).Nodup := by
    decide +kernel
  obtain ⟨hsame, hdisk⟩ := patchAll_idempotent hfs hapis none
  obtain ⟨first, again, disk, hpass, -, hagain, -⟩ :=
    hdisk .replace callsPlace (.emptyAt []) textIfFile_emptyAt (writable_emptyAt .replace)
  exact ⟨hfs, hapis, hsame, again, disk, by rw [hpass], hagain⟩

end Pass

end DartScaffold.Aggregate
