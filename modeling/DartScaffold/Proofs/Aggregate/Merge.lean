import DartScaffold.Proofs.Aggregate.Edit

/-!
Merging a fragment. A well-formed fragment keeps a document sound, so that the text written is read
back as the very document that was merged. `merge_induction` is the only induction over the edits
of a merge: what holds of the document and is kept by each edit holds of the result.
-/

namespace DartScaffold.Aggregate

/-- What the fragments of a page are like: their texts cannot be taken for markers of other
blocks. -/
structure Fragment.WellFormed (f : Fragment) : Prop where
  api : IsApiId f.api
  parts : ∀ block ∈ f.blocks, IsPartName block.1
  /-- The sections are the keys of a dictionary. -/
  distinct : (f.blocks.map Prod.fst).Nodup
  bodies : ∀ block ∈ f.blocks, IsBody ⟨block.1, f.api⟩ (Text.splitLines block.2)
  imports : ∀ line ∈ f.imports,
    normalizeImport line = "" ∨ isImportLine (normalizeImport line) = true
  carriages : ∀ block ∈ f.blocks, '\r' ∉ block.2.toList
  skeleton : '\r' ∉ f.skeleton.toList

instance (f : Fragment) : Decidable f.WellFormed :=
  decidable_of_iff
    (IsApiId f.api ∧ (∀ block ∈ f.blocks, IsPartName block.1) ∧ (f.blocks.map Prod.fst).Nodup ∧
      (∀ block ∈ f.blocks, IsBody ⟨block.1, f.api⟩ (Text.splitLines block.2)) ∧
      (∀ line ∈ f.imports,
        normalizeImport line = "" ∨ isImportLine (normalizeImport line) = true) ∧
      (∀ block ∈ f.blocks, '\r' ∉ block.2.toList) ∧ '\r' ∉ f.skeleton.toList)
    ⟨fun ⟨api, parts, distinct, bodies, imports, carriages, skeleton⟩ =>
        ⟨api, parts, distinct, bodies, imports, carriages, skeleton⟩,
      fun h => ⟨h.api, h.parts, h.distinct, h.bodies, h.imports, h.carriages, h.skeleton⟩⟩

theorem Fragment.WellFormed.valid {f : Fragment} (hf : f.WellFormed) {block : String × String}
    (h : block ∈ f.blocks) : BlockKey.Valid ⟨block.1, f.api⟩ :=
  ⟨hf.parts block h, hf.api⟩

/-! ### Line breaks -/

/-- The characters that end lines somewhere. -/
def IsLineBreak (c : Char) : Prop := c = '\n' ∨ c = '\r'

theorem IsLineBreak.isBlank {c : Char} (h : IsLineBreak c) : Text.isBlank c = true := by
  rcases h with rfl | rfl <;> decide

theorem IsLineBreak.ne_space {c : Char} (h : IsLineBreak c) : c ≠ ' ' := by
  rcases h with rfl | rfl <;> decide

theorem IsLineBreak.isPartChar {c : Char} (h : IsLineBreak c) : Aggregate.isPartChar c = false := by
  rcases h with rfl | rfl <;> decide

theorem BlockKey.Valid.not_mem {key : BlockKey} (hkey : key.Valid) {c : Char}
    (hc : IsLineBreak c) : c ∉ key.part.toList ∧ c ∉ key.api.toList := by
  constructor
  · intro h
    simpa [hc.isPartChar] using hkey.part.2 c h
  · intro h
    simpa [hc.isBlank] using hkey.api.2 c h

theorem not_mem_beginMarker {key : BlockKey} (hkey : key.Valid) {c : Char}
    (hc : IsLineBreak c) : c ∉ (beginMarker key.part key.api).toList := by
  obtain ⟨hpart, hapi⟩ := hkey.not_mem hc
  have hhead : c ∉ beginHead := by rcases hc with rfl | rfl <;> decide
  have hcolon : c ≠ ':' := by rcases hc with rfl | rfl <;> decide
  simp [toList_beginMarker, hhead, hpart, hapi, hcolon]

theorem not_mem_endMarker {key : BlockKey} (hkey : key.Valid) {c : Char}
    (hc : IsLineBreak c) : c ∉ (endMarker key.part key.api).toList := by
  obtain ⟨hpart, hapi⟩ := hkey.not_mem hc
  have hhead : c ∉ endHead := by rcases hc with rfl | rfl <;> decide
  have hcolon : c ≠ ':' := by rcases hc with rfl | rfl <;> decide
  simp [toList_endMarker, hhead, hpart, hapi, hcolon]

theorem not_mem_makeBlock {key : BlockKey} (hkey : key.Valid) {c : Char} (hc : IsLineBreak c)
    {body indent : String} (hbody : ∀ line ∈ blockBody body, c ∉ line.toList)
    (hindent : c ∉ indent.toList) :
    ∀ line ∈ (makeBlock key body indent).lines, c ∉ line.toList := by
  rw [makeBlock_eq]
  simp only [Node.lines, List.mem_append, List.mem_cons, List.not_mem_nil, or_false]
  rintro line ((rfl | hline) | rfl)
  · simp [hindent, not_mem_beginMarker hkey hc]
  · exact hbody line hline
  · simp [hindent, not_mem_endMarker hkey hc]

theorem not_mem_indent_of_begin? {line indent : String} {key : BlockKey} {c : Char}
    (h : begin? line = some (indent, key)) (hc : c ∉ line.toList) : c ∉ indent.toList := by
  obtain ⟨-, -, tail, -, hline⟩ := begin?_eq_some_iff.mp h
  rw [hline] at hc
  exact fun hmem => hc (List.mem_append_left _ hmem)

theorem not_mem_indent_of_anchor? {line indent part : String} {c : Char}
    (h : anchor? line = some (indent, part)) (hc : c ∉ line.toList) : c ∉ indent.toList := by
  obtain ⟨-, -, tail, -, -, hline⟩ := anchor?_eq_some_iff.mp h
  rw [hline] at hc
  exact fun hmem => hc (List.mem_append_left _ hmem)

namespace Document

theorem Put.lacks {key : BlockKey} {body : String} {d d' : Document} {anchored : Bool}
    (h : Put key body d d' anchored) (hkey : key.Valid) {c : Char} (hc : IsLineBreak c)
    (hbody : ∀ line ∈ blockBody body, c ∉ line.toList) (hd : d.Lacks c) : d'.Lacks c := by
  cases h with
  | @replaced pre post first last indent old hpre hfirst =>
      simp only [lacks_append, lacks_cons] at hd ⊢
      obtain ⟨hpre, hblock, hpost⟩ := hd
      have hindent := not_mem_indent_of_begin? hfirst (hblock first (by simp [Node.lines]))
      exact ⟨hpre, not_mem_makeBlock hkey hc hbody hindent, hpost⟩
  | @inserted pre post line indent _ hpre hanchor =>
      simp only [lacks_append, lacks_cons] at hd ⊢
      obtain ⟨hpre, hline, hpost⟩ := hd
      have hindent := not_mem_indent_of_anchor? hanchor (hline line (by simp [Node.lines]))
      exact ⟨hpre, not_mem_makeBlock hkey hc hbody hindent, by simp [Node.lines], hline, hpost⟩
  | appended _ _ _ =>
      simp only [lacks_append, lacks_cons] at hd ⊢
      exact ⟨hd.1, by simp [Node.lines], not_mem_makeBlock hkey hc hbody (by simp), hd.2⟩

theorem Put.sound {key : BlockKey} {body : String} {d d' : Document} {anchored : Bool}
    (h : Put key body d d' anchored) (hkey : key.Valid)
    (hbody : IsBody key (Text.splitLines body)) (hd : d.Sound) : d'.Sound where
  faithful := h.faithful hkey hbody hd.faithful
  newlines := h.lacks hkey (.inl rfl) (fun _ => Text.newline_not_mem_of_mem_splitLines) hd.newlines
  nonempty := by cases h <;> simp

theorem Imported.lacks {fresh : List String} {d d' : Document} (h : Imported fresh d d')
    {c : Char} (hfresh : ∀ key ∈ fresh, c ∉ key.toList) (hd : d.Lacks c) : d'.Lacks c := by
  have hadded : Lacks c (fresh.map .directive) := by
    intro line hline
    obtain ⟨node, hnode, hmem⟩ := List.mem_flatMap.mp hline
    obtain ⟨key, hkey, rfl⟩ := List.mem_map.mp hnode
    obtain rfl : line = key := by simpa [Node.lines] using hmem
    exact hfresh line hkey
  cases h with
  | nothing => exact hd
  | after _ =>
      simp only [lacks_append, lacks_cons] at hd ⊢
      exact ⟨hd.1, hd.2.1, hadded, hd.2.2⟩
  | top _ _ =>
      simp only [lacks_append, lacks_cons]
      exact ⟨hadded, by simp [Node.lines], hd⟩

/-! ### Whole merges -/

theorem putBlocks_induction {api : String} {blocks : List (String × String)}
    {motive : Document → Prop} {d : Document} (hd : motive d)
    (hblock : ∀ block ∈ blocks, ∀ d, motive d → motive (d.putBlock ⟨block.1, api⟩ block.2).1) :
    motive (putBlocks api d blocks).1 := by
  induction blocks generalizing d with
  | nil => exact hd
  | cons block blocks ih =>
      rw [putBlocks]
      exact ih (hblock block List.mem_cons_self d hd)
        fun b hb => hblock b (List.mem_cons_of_mem _ hb)

theorem merge_induction {f : Fragment} {motive : Document → Prop} {d : Document}
    (himports : motive (d.addImports f.imports).1)
    (hblock : ∀ block ∈ f.blocks, ∀ d, motive d →
      motive (d.putBlock ⟨block.1, f.api⟩ block.2).1) : motive (d.merge f).1 :=
  putBlocks_induction himports hblock

section Merge

variable {f : Fragment} {d : Document}

theorem isImportLine_of_mem_freshImports (hf : f.WellFormed) {known : List String} {key : String}
    (h : key ∈ freshImports known f.imports) : isImportLine key = true := by
  obtain ⟨⟨line, hline, rfl⟩, hne, -⟩ := mem_freshImports.mp h
  exact (hf.imports line hline).resolve_left hne

theorem addImports_lacks {c : Char} (hc : IsLineBreak c) (imports : List String)
    (hd : d.Lacks c) : (d.addImports imports).1.Lacks c := by
  refine (imported_addImports d imports).lacks (fun key hkey => ?_) hd
  obtain ⟨⟨line, -, rfl⟩, -, -⟩ := mem_freshImports.mp hkey
  exact not_mem_normalizeImport hc.isBlank hc.ne_space line

theorem addImports_sound (hf : f.WellFormed) (hd : d.Sound) : (d.addImports f.imports).1.Sound where
  faithful := (imported_addImports d f.imports).faithful
    (fun _ => isImportLine_of_mem_freshImports hf) hd.faithful
  newlines := addImports_lacks (.inl rfl) f.imports hd.newlines
  nonempty := by
    have himported := imported_addImports d f.imports
    generalize (d.addImports f.imports).1 = d' at himported
    cases himported with
    | nothing => exact hd.nonempty
    | after => simp
    | top => simp

theorem putBlock_sound (hf : f.WellFormed) {block : String × String} (hblock : block ∈ f.blocks)
    (hd : d.Sound) : (d.putBlock ⟨block.1, f.api⟩ block.2).1.Sound :=
  (put_putBlock hd.faithful _ _).sound (hf.valid hblock) (hf.bodies block hblock) hd

theorem merge_sound (hf : f.WellFormed) (hd : d.Sound) : (d.merge f).1.Sound :=
  merge_induction (addImports_sound hf hd) fun _ hblock _ => putBlock_sound hf hblock

theorem merge_carriage (hf : f.WellFormed) (hd : d.Sound) (hcarriage : d.Lacks '\r') :
    (d.merge f).1.Lacks '\r' := by
  -- soundness goes with it, since `put_putBlock` needs a faithful document
  have hmerged : (d.merge f).1.Sound ∧ (d.merge f).1.Lacks '\r' := by
    refine merge_induction (motive := fun d => d.Sound ∧ d.Lacks '\r') ?_ ?_
    · exact ⟨addImports_sound hf hd, addImports_lacks (.inr rfl) _ hcarriage⟩
    · rintro block hblock d ⟨hd, hcarriage⟩
      refine ⟨putBlock_sound hf hblock hd, ?_⟩
      refine (put_putBlock hd.faithful _ _).lacks (hf.valid hblock) (.inr rfl) ?_ hcarriage
      exact fun line hline hc => hf.carriages block hblock (mem_of_mem_blockBody hline hc)
  exact hmerged.2

/-- The text that a merge makes is read back as the document that it made. -/
theorem parse_mergeText (hf : f.WellFormed) (existing : Option String) :
    parse (mergeText existing f).1 = ((parse (existing.getD f.skeleton)).merge f).1 :=
  parse_render (merge_sound hf (sound_parse _))

end Merge

end Document

end DartScaffold.Aggregate
