import DartScaffold.Proofs.Aggregate.Edit

/-!
Removing an API undoes what was put in for it. A new block stands directly before an anchor, with one
blank line between the two, and a removal passes over both as if they had never been there: the blank
lines around them belong to the document and stay. So it does not matter how often and in which order the
sections of the API were put in, nor what their bodies hold.
-/

namespace DartScaffold.Aggregate

namespace Node

/-- The section of a block of `api`. -/
def partOf? (api : String) : Node → Option String
  | .block key _ _ _ => if key.api = api then some key.part else none
  | _ => none

theorem partOf?_eq_some_iff {api part : String} {node : Node} :
    node.partOf? api = some part ↔ node.key? = some ⟨part, api⟩ := by
  cases node with
  | block key first body last =>
      obtain ⟨p, a⟩ := key
      simp [partOf?, and_comm]
  | _ => simp [partOf?]

theorem isSome_partOf? (api : String) (node : Node) :
    (node.partOf? api).isSome = node.isBlockOf api := by
  cases node with
  | block key first body last => by_cases hapi : key.api = api <;> simp [partOf?, isBlockOf, hapi]
  | _ => rfl

theorem readable_makeBlock {key : BlockKey} (hkey : key.Valid) {indent : String}
    (hindent : IsIndent indent) (body : String) : (makeBlock key body indent).Readable := by
  rw [makeBlock_eq]
  exact ⟨indent, begin?_beginMarker hindent hkey⟩

end Node

namespace Document

/-- Puts in blocks of one API, one after the other, as long as each has a place. -/
def upsertAll (api : String) : Document → List (String × String) → Except UpsertFault Document
  | d, [] => .ok d
  | d, (part, body) :: rest => do
    let d ← d.upsert ⟨part, api⟩ body
    upsertAll api d rest

/-- The sections in which an API has blocks, block by block. -/
def partsOf (api : String) (d : Document) : List String :=
  d.filterMap (Node.partOf? api)

theorem mem_partsOf {api part : String} {d : Document} :
    part ∈ d.partsOf api ↔ ⟨part, api⟩ ∈ d.blockKeys := by
  simp only [partsOf, blockKeys_eq, List.mem_filterMap, Node.partOf?_eq_some_iff]

theorem length_partsOf (api : String) (d : Document) :
    (d.partsOf api).length = d.countP (Node.isBlockOf api) := by
  simp only [partsOf, List.length_filterMap_eq_countP, Node.isSome_partOf?]

/-! ### Removals -/

section Drop

variable {api : String}

/-- The block and its blank line go, and what follows is dropped from as before. -/
theorem dropApi_inserted (afterBlock : Bool) (body indent part line anchorIndent : String)
    (post : Document) :
    dropApi api afterBlock (makeBlock ⟨part, api⟩ body indent :: .text "" ::
        .anchor line part anchorIndent :: post) =
      dropApi api afterBlock (.anchor line part anchorIndent :: post) := by
  simp [dropApi, makeBlock, Node.isBlockOf]

theorem dropApi_replaced (afterBlock : Bool) {key : BlockKey} (first last body indent : String)
    (old : List String) (post : Document) :
    dropApi key.api afterBlock (makeBlock key body indent :: post) =
      dropApi key.api afterBlock (.block key first old last :: post) := by
  simp [dropApi, makeBlock, Node.isBlockOf]

theorem dropApi_append_congr {old new : Document}
    (h : ∀ afterBlock, dropApi api afterBlock old = dropApi api afterBlock new) (pre : Document)
    (afterBlock : Bool) :
    dropApi api afterBlock (pre ++ old) = dropApi api afterBlock (pre ++ new) := by
  induction pre generalizing afterBlock with
  | nil => exact h afterBlock
  | cons node pre ih => simp only [List.cons_append, dropApi, ih]

/-- A document that has nothing of the API. -/
theorem dropApi_eq_self {d : Document} (hblocks : ∀ node ∈ d, node.isBlockOf api = false)
    (himports : ∀ line, .directive line ∈ d → importsModelOf api line = false) :
    dropApi api false d = d := by
  induction d with
  | nil => rfl
  | cons node d ih =>
      obtain ⟨hnode, hblocks⟩ := List.forall_mem_cons.mp hblocks
      have hrest := ih hblocks fun line hline => himports line (List.mem_cons_of_mem _ hline)
      cases node with
      | directive line =>
          have hline := himports line List.mem_cons_self
          simp [dropApi, Node.isBlockOf, hline, hrest]
      | _ => simp [dropApi, hnode, hrest]

end Drop

/-! ### One block -/

section Put

variable {key : BlockKey} {body : String} {d d' : Document}

/-- Where a block that is put in has its place. -/
theorem exists_upsert (h : d.Readable) (hpart : key.part ∈ d.anchorParts) (body : String) :
    ∃ d', d.upsert key body = .ok d' ∧ Put key body d d' true := by
  have hput := put_of_readable h key body
  rw [putBlock] at hput
  cases hupsert : d.upsert key body with
  | ok d' =>
      rw [hupsert] at hput
      exact ⟨d', rfl, hput⟩
  | error fault =>
      rw [hupsert] at hput
      dsimp only at hput
      generalize d.append key body = d' at hput
      cases hput with
      | appended _ hnot _ => exact absurd hpart hnot

theorem Put.dropApi (h : Put key body d d' true) (afterBlock : Bool) :
    dropApi key.api afterBlock d' = dropApi key.api afterBlock d := by
  cases h with
  | replaced _ _ => exact dropApi_append_congr (fun _ => dropApi_replaced _ _ _ _ _ _ _) _ _
  | inserted _ _ _ => exact dropApi_append_congr (fun _ => dropApi_inserted _ _ _ _ _ _ _) _ _

theorem Put.readable (h : Put key body d d' true) (hkey : key.Valid) (hd : d.Readable) :
    d'.Readable := by
  cases h with
  | replaced _ hfirst =>
      obtain ⟨hpre, -, hpost⟩ := List.forall_mem_append.mp hd |>.imp_right List.forall_mem_cons.mp
      exact List.forall_mem_append.mpr ⟨hpre, List.forall_mem_cons.mpr
        ⟨Node.readable_makeBlock hkey (isIndent_of_begin? hfirst) body, hpost⟩⟩
  | inserted _ _ hanchor =>
      obtain ⟨hpre, hrest⟩ := List.forall_mem_append.mp hd
      exact List.forall_mem_append.mpr ⟨hpre, List.forall_mem_cons.mpr
        ⟨Node.readable_makeBlock hkey (isIndent_of_anchor? hanchor) body,
          List.forall_mem_cons.mpr ⟨trivial, hrest⟩⟩⟩

theorem Put.anchorParts (h : Put key body d d' true) : d'.anchorParts = d.anchorParts := by
  cases h <;> simp [Document.anchorParts, makeBlock, Node.part?, List.filterMap_cons]

/-- A new block adds its section, another one adds nothing. -/
theorem Put.partsOf (h : Put key body d d' true) :
    d'.partsOf key.api = d.partsOf key.api ∧ key.part ∈ d.partsOf key.api ∨
      (d'.partsOf key.api).Perm (key.part :: d.partsOf key.api) ∧ key.part ∉ d.partsOf key.api := by
  cases h with
  | replaced _ _ =>
      left
      simp [Document.partsOf, makeBlock, Node.partOf?]
  | @inserted pre post line indent hkey _ _ =>
      right
      refine ⟨?_, mem_partsOf.not.mpr hkey⟩
      have hblock : (makeBlock key body indent).partOf? key.api = some key.part := by
        simp [makeBlock, Node.partOf?]
      have hblank : (Node.text "").partOf? key.api = none := rfl
      rw [Document.partsOf, Document.partsOf, List.filterMap_append, List.filterMap_append,
        List.filterMap_cons_some hblock, List.filterMap_cons_none hblank]
      exact List.perm_middle

end Put

/-! ### Many blocks -/

/-- What becomes of a document when blocks of `api` are put in at `parts`. Whoever removes the API does
not see a difference. -/
structure Grown (api : String) (parts : List String) (d d' : Document) : Prop where
  dropped : ∀ afterBlock, dropApi api afterBlock d' = dropApi api afterBlock d
  readable : d'.Readable
  anchors : d'.anchorParts = d.anchorParts
  nodup : (d.partsOf api).Nodup → (d'.partsOf api).Nodup
  parts : ∀ part, part ∈ d'.partsOf api ↔ part ∈ d.partsOf api ∨ part ∈ parts

section Grown

variable {api : String} {parts more : List String} {d d' d'' : Document}

theorem Grown.refl (h : d.Readable) : Grown api [] d d :=
  ⟨fun _ => rfl, h, rfl, id, by simp⟩

theorem Grown.trans (h : Grown api parts d d') (h' : Grown api more d' d'') :
    Grown api (parts ++ more) d d'' where
  dropped afterBlock := (h'.dropped afterBlock).trans (h.dropped afterBlock)
  readable := h'.readable
  anchors := h'.anchors.trans h.anchors
  nodup hd := h'.nodup (h.nodup hd)
  parts part := by rw [h'.parts, h.parts, List.mem_append, or_assoc]

theorem Put.grown {key : BlockKey} {body : String} (h : Put key body d d' true) (hkey : key.Valid)
    (hd : d.Readable) : Grown key.api [key.part] d d' where
  dropped := h.dropApi
  readable := h.readable hkey hd
  anchors := h.anchorParts
  nodup hnodup := by
    rcases h.partsOf with ⟨heq, -⟩ | ⟨hperm, hnew⟩
    · rwa [heq]
    · exact hperm.nodup_iff.mpr (List.nodup_cons.mpr ⟨hnew, hnodup⟩)
  parts part := by
    rcases h.partsOf with ⟨heq, hmem⟩ | ⟨hperm, -⟩
    · rw [heq, List.mem_singleton]
      exact ⟨.inl, fun hpart => hpart.elim id fun heq => heq ▸ hmem⟩
    · rw [hperm.mem_iff, List.mem_cons, List.mem_singleton, or_comm]

/-- The name of a section with an anchor can stand in markers. -/
theorem Readable.isPartName (h : d.Readable) {part : String} (hpart : part ∈ d.anchorParts) :
    IsPartName part := by
  obtain ⟨node, hnode, hview⟩ := List.mem_filterMap.mp hpart
  cases node with
  | anchor line p indent =>
      obtain rfl : p = part := by simpa [Node.part?] using hview
      have hanchor : Aggregate.anchor? line = some (indent, p) := h _ hnode
      exact (anchor?_eq_some_iff.mp hanchor).2.1
  | _ => simp [Node.part?] at hview

theorem grown_upsertAll (hapi : IsApiId api) (hd : d.Readable) {blocks : List (String × String)}
    (hparts : ∀ block ∈ blocks, block.1 ∈ d.anchorParts) :
    ∃ d', upsertAll api d blocks = .ok d' ∧ Grown api (blocks.map Prod.fst) d d' := by
  induction blocks generalizing d with
  | nil => exact ⟨d, rfl, .refl hd⟩
  | cons block blocks ih =>
      obtain ⟨part, body⟩ := block
      obtain ⟨hpart, hrest⟩ := List.forall_mem_cons.mp hparts
      obtain ⟨d', hupsert, hput⟩ : ∃ d', d.upsert ⟨part, api⟩ body = .ok d' ∧
          Put ⟨part, api⟩ body d d' true := exists_upsert hd hpart body
      have hfirst : Grown api [part] d d' := hput.grown ⟨hd.isPartName hpart, hapi⟩ hd
      rw [← hfirst.anchors] at hrest
      obtain ⟨d'', hall, hgrown⟩ := ih hfirst.readable hrest
      refine ⟨d'', ?_, hfirst.trans hgrown⟩
      rw [upsertAll, hupsert]
      exact hall

end Grown

/-- Where a document has nothing of an API, putting in its blocks and removing the API gives the document
back, node by node, and tells in how many sections the API had been. -/
theorem removeApi_upsertAll {text api : String} (hapi : IsApiId api)
    (hblocks : ∀ node ∈ parse text, node.isBlockOf api = false)
    (himports : ∀ line, .directive line ∈ parse text → importsModelOf api line = false)
    {blocks : List (String × String)}
    (hparts : ∀ block ∈ blocks, block.1 ∈ (parse text).anchorParts) :
    ∃ d, upsertAll api (parse text) blocks = .ok d ∧
      d.removeApi api = (parse text, (blocks.map Prod.fst).eraseDups.length) := by
  obtain ⟨d, hall, hgrown⟩ := grown_upsertAll hapi (sound_parse text).faithful.readable hparts
  have hnone : (parse text).partsOf api = [] := by
    rw [← List.length_eq_zero_iff, length_partsOf, List.countP_eq_zero]
    simpa using hblocks
  have hperm : (d.partsOf api).Perm (blocks.map Prod.fst).eraseDups := by
    refine (List.perm_ext_iff_of_nodup (hgrown.nodup ?_) (Text.nodup_eraseDups _)).mpr fun part => ?_
    · rw [hnone]
      exact List.nodup_nil
    · rw [hgrown.parts, hnone, List.mem_eraseDups]
      simp
  refine ⟨d, hall, ?_⟩
  rw [removeApi, hgrown.dropped, dropApi_eq_self hblocks himports, ← length_partsOf, hperm.length_eq]

/-- Two anchors with blank lines around them, one of them indented. -/
def neighbours : String :=
  "import 'login_entity.dart';\n\n  // json2dart:anchor interface\n\n// json2dart:anchor models\n"

theorem removeApi_upsertAll_neighbours :
    IsApiId "getUser" ∧ (∀ node ∈ parse neighbours, node.isBlockOf "getUser" = false) ∧
      (∀ line, .directive line ∈ parse neighbours → importsModelOf "getUser" line = false) ∧
      ∃ d, upsertAll "getUser" (parse neighbours)
          [("models", "a();"), ("interface", ""), ("models", "\nb();\n")] = .ok d ∧
        d.removeApi "getUser" = (parse neighbours, 2) := by
  have hapi : IsApiId "getUser" := by decide
  have hblocks : ∀ node ∈ parse neighbours, node.isBlockOf "getUser" = false := by decide +kernel
  have himports : ∀ line, .directive line ∈ parse neighbours →
      importsModelOf "getUser" line = false := by
    intro line hline
    have hall : ∀ node ∈ parse neighbours, ∀ line ∈ node.lines,
        importsModelOf "getUser" line = false := by decide +kernel
    exact hall _ hline line List.mem_cons_self
  have hparts : ∀ block ∈ [("models", "a();"), ("interface", ""), ("models", "\nb();\n")],
      block.1 ∈ (parse neighbours).anchorParts := by decide +kernel
  exact ⟨hapi, hblocks, himports, removeApi_upsertAll hapi hblocks himports hparts⟩

end Document

end DartScaffold.Aggregate
