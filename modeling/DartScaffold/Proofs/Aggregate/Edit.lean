import DartScaffold.Aggregate.Patch
import DartScaffold.Proofs.Aggregate.Document

/-!
What the two edits of a merge do. `Put` says it of one block, `Imported` of the import lines: each
constructor is one place where nodes can go. Everything proved of a merge starts from these two
case distinctions, so that no later proof walks over the nodes again.
-/

namespace DartScaffold.Aggregate

/-! ### Views of a document -/

namespace Node

def key? : Node → Option BlockKey
  | .block key _ _ _ => some key
  | _ => none

def part? : Node → Option String
  | .anchor _ part _ => some part
  | _ => none

def importKey? : Node → Option String
  | .directive line => some (normalizeImport line)
  | _ => none

@[simp] theorem key?_text (line : String) : (text line).key? = none := rfl

@[simp] theorem key?_directive (line : String) : (directive line).key? = none := rfl

@[simp] theorem key?_anchor (line part indent : String) :
    (anchor line part indent).key? = none := rfl

@[simp] theorem key?_block (key : BlockKey) (first : String) (body : List String) (last : String) :
    (block key first body last).key? = some key := rfl

@[simp] theorem key?_makeBlock (key : BlockKey) (body indent : String) :
    (makeBlock key body indent).key? = some key := rfl

@[simp] theorem key?_ofLine (line : String) : (ofLine line).key? = none := by
  rw [ofLine]
  split
  · rfl
  · split <;> rfl

theorem isBlockOf_of_key? {node : Node} {key : BlockKey} (h : node.key? = some key) :
    node.isBlockOf key.api = true := by
  cases node with
  | block k first body last =>
      obtain rfl : k = key := by simpa using h
      simp [isBlockOf]
  | _ => contradiction

end Node

namespace Document

theorem blockKeys_eq (d : Document) : d.blockKeys = d.filterMap Node.key? := by
  refine List.filterMap_congr fun node _ => ?_
  cases node <;> rfl

theorem importKeys_eq (d : Document) : d.importKeys = d.filterMap Node.importKey? := by
  refine List.filterMap_congr fun node _ => ?_
  cases node <;> rfl

/-- The sections that have an anchor. -/
def anchorParts (d : Document) : List String :=
  d.filterMap Node.part?

theorem mem_filterMap_cons {α : Type} {view : Node → Option α} {b : α} {node : Node}
    {d : Document} :
    b ∈ (node :: d).filterMap view ↔ view node = some b ∨ b ∈ d.filterMap view := by
  simp only [List.mem_filterMap, List.mem_cons]
  constructor
  · rintro ⟨other, rfl | hother, hview⟩
    · exact .inl hview
    · exact .inr ⟨other, hother, hview⟩
  · rintro (hview | ⟨other, hother, hview⟩)
    · exact ⟨node, .inl rfl, hview⟩
    · exact ⟨other, .inr hother, hview⟩

@[simp] theorem mem_blockKeys_cons {key : BlockKey} {node : Node} {d : Document} :
    key ∈ blockKeys (node :: d) ↔ node.key? = some key ∨ key ∈ blockKeys d := by
  rw [blockKeys_eq, blockKeys_eq]
  exact mem_filterMap_cons

@[simp] theorem mem_importKeys_cons {key : String} {node : Node} {d : Document} :
    key ∈ importKeys (node :: d) ↔ node.importKey? = some key ∨ key ∈ importKeys d := by
  rw [importKeys_eq, importKeys_eq]
  exact mem_filterMap_cons

@[simp] theorem mem_anchorParts_cons {part : String} {node : Node} {d : Document} :
    part ∈ anchorParts (node :: d) ↔ node.part? = some part ∨ part ∈ anchorParts d :=
  mem_filterMap_cons

@[simp] theorem blockKeys_append (d e : Document) :
    blockKeys (d ++ e) = blockKeys d ++ blockKeys e :=
  List.filterMap_append

@[simp] theorem importKeys_append (d e : Document) :
    importKeys (d ++ e) = importKeys d ++ importKeys e :=
  List.filterMap_append

@[simp] theorem anchorParts_append (d e : Document) :
    anchorParts (d ++ e) = anchorParts d ++ anchorParts e :=
  List.filterMap_append

/-- The first node that a view shows as `b`. -/
theorem exists_first {α : Type} [DecidableEq α] {view : Node → Option α} {b : α} {d : Document}
    (h : b ∈ d.filterMap view) :
    ∃ pre node post, d = pre ++ node :: post ∧ view node = some b ∧ b ∉ pre.filterMap view := by
  induction d with
  | nil => simp at h
  | cons node d ih =>
      by_cases hnode : view node = some b
      · exact ⟨[], node, d, rfl, hnode, by simp⟩
      · have htail := (mem_filterMap_cons.mp h).resolve_left hnode
        obtain ⟨pre, found, post, rfl, hview, hpre⟩ := ih htail
        refine ⟨node :: pre, found, post, rfl, hview, ?_⟩
        rw [mem_filterMap_cons]
        exact not_or.mpr ⟨hnode, hpre⟩

end Document

/-! ### One block -/

namespace Document

theorem replaceBlock?_cons_of_ne {key : BlockKey} {node : Node} (h : node.key? ≠ some key)
    (body : String) (d : Document) :
    replaceBlock? key body (node :: d) = (replaceBlock? key body d).map (·.map (node :: ·)) := by
  cases node with
  | block k first old last => simp_all [replaceBlock?, Node.key?]
  | _ => rfl

theorem replaceBlock?_eq_none {key : BlockKey} {d : Document} (h : key ∉ d.blockKeys)
    (body : String) : replaceBlock? key body d = none := by
  induction d with
  | nil => rfl
  | cons node d ih =>
      obtain ⟨hnode, htail⟩ := not_or.mp (mem_blockKeys_cons.not.mp h)
      rw [replaceBlock?_cons_of_ne hnode, ih htail]
      rfl

theorem replaceBlock?_append {key k : BlockKey} {pre : Document} {first indent : String}
    (hpre : key ∉ pre.blockKeys) (hfirst : begin? first = some (indent, k)) (body last : String)
    (old : List String) (post : Document) :
    replaceBlock? key body (pre ++ .block key first old last :: post) =
      some (.ok (pre ++ makeBlock key body indent :: post)) := by
  induction pre with
  | nil => simp [replaceBlock?, hfirst]
  | cons node pre ih =>
      obtain ⟨hnode, htail⟩ := not_or.mp (mem_blockKeys_cons.not.mp hpre)
      rw [List.cons_append, replaceBlock?_cons_of_ne hnode, ih htail]
      rfl

theorem insertBlock?_cons_of_ne {key : BlockKey} {node : Node} (h : node.part? ≠ some key.part)
    (body : String) (d : Document) :
    insertBlock? key body (node :: d) = (insertBlock? key body d).map (node :: ·) := by
  cases node with
  | anchor line part indent => simp_all [insertBlock?, Node.part?]
  | _ => rfl

theorem insertBlock?_eq_none {key : BlockKey} {d : Document} (h : key.part ∉ d.anchorParts)
    (body : String) : insertBlock? key body d = none := by
  induction d with
  | nil => rfl
  | cons node d ih =>
      obtain ⟨hnode, htail⟩ := not_or.mp (mem_anchorParts_cons.not.mp h)
      rw [insertBlock?_cons_of_ne hnode, ih htail]
      rfl

theorem insertBlock?_append {key : BlockKey} {pre : Document}
    (hpre : key.part ∉ pre.anchorParts) (body line indent : String) (post : Document) :
    insertBlock? key body (pre ++ .anchor line key.part indent :: post) =
      some (pre ++
        makeBlock key body indent :: .text "" :: .anchor line key.part indent :: post) := by
  induction pre with
  | nil => simp [insertBlock?]
  | cons node pre ih =>
      obtain ⟨hnode, htail⟩ := not_or.mp (mem_anchorParts_cons.not.mp hpre)
      rw [List.cons_append, insertBlock?_cons_of_ne hnode, ih htail]
      rfl

/-- What becomes of a document when a block is put in, and whether its section has an anchor or it
is there already. -/
inductive Put (key : BlockKey) (body : String) : Document → Document → Bool → Prop where
  | replaced {pre post : Document} {first last indent : String} {old : List String}
      (hpre : key ∉ blockKeys pre) (hfirst : begin? first = some (indent, key)) :
      Put key body (pre ++ .block key first old last :: post)
        (pre ++ makeBlock key body indent :: post) true
  | inserted {pre post : Document} {line indent : String}
      (hkey : key ∉ blockKeys (pre ++ .anchor line key.part indent :: post))
      (hpre : key.part ∉ anchorParts pre)
      (hanchor : anchor? line = some (indent, key.part)) :
      Put key body (pre ++ .anchor line key.part indent :: post)
        (pre ++ makeBlock key body indent :: .text "" :: .anchor line key.part indent :: post) true
  | appended {pre post : Document} (hkey : key ∉ blockKeys (pre ++ post))
      (hpart : key.part ∉ anchorParts (pre ++ post)) (hpost : post = [] ∨ post = [.text ""]) :
      Put key body (pre ++ post) (pre ++ .text "" :: makeBlock key body "" :: post) false

theorem Faithful.isBlock {pre post : Document} {key : BlockKey} {first last : String}
    {body : List String} (h : Faithful (pre ++ .block key first body last :: post)) :
    IsBlock key first body last := by
  generalize hnode : Node.block key first body last = node at h
  cases h.right with
  | line =>
      rw [Node.ofLine] at hnode
      split at hnode
      · cases hnode
      · split at hnode <;> cases hnode
  | block hblock =>
      obtain ⟨rfl, rfl, rfl, rfl⟩ := Node.block.inj hnode
      exact hblock

theorem append_eq (d : Document) (key : BlockKey) (body : String) :
    ∃ pre post, d = pre ++ post ∧ (post = [] ∨ post = [.text ""]) ∧
      d.append key body = pre ++ .text "" :: makeBlock key body "" :: post := by
  rw [append]
  split
  · rename_i hlast
    obtain ⟨pre, rfl⟩ := List.getLast?_eq_some_iff.mp hlast
    exact ⟨pre, [.text ""], rfl, .inr rfl, by simp⟩
  · exact ⟨d, [], by simp, .inl rfl, rfl⟩

end Document

/-- Its own marker reads as the node says. -/
def Node.Readable : Node → Prop
  | .block key first _ _ => ∃ indent, begin? first = some (indent, key)
  | .anchor line part indent => anchor? line = some (indent, part)
  | _ => True

theorem Node.readable_ofLine (line : String) : (Node.ofLine line).Readable := by
  rw [ofLine]
  split
  · assumption
  · split <;> trivial

namespace Document

def Readable (d : Document) : Prop :=
  ∀ node ∈ d, node.Readable

theorem Faithful.readable {d : Document} (h : d.Faithful) : d.Readable := by
  induction h with
  | nil => exact List.forall_mem_nil _
  | line _ _ ih => exact List.forall_mem_cons.mpr ⟨Node.readable_ofLine _, ih⟩
  | block hblock _ ih => exact List.forall_mem_cons.mpr ⟨hblock.first, ih⟩

theorem Faithful.anchor? {pre post : Document} {line part indent : String}
    (h : Faithful (pre ++ .anchor line part indent :: post)) :
    Aggregate.anchor? line = some (indent, part) :=
  h.readable (.anchor line part indent) (by simp)

theorem put_of_readable {d : Document} (h : d.Readable) (key : BlockKey) (body : String) :
    Put key body d (d.putBlock key body).1 (d.putBlock key body).2 := by
  by_cases hkey : key ∈ d.blockKeys
  · -- the block is there, and its begin marker gives the indent of the new one
    rw [blockKeys_eq] at hkey
    obtain ⟨pre, node, post, rfl, hview, hpre⟩ := exists_first hkey
    rw [← blockKeys_eq] at hpre
    cases node with
    | block k first old last =>
        obtain rfl : k = key := by simpa [Node.key?] using hview
        obtain ⟨indent, hfirst⟩ : (Node.block k first old last).Readable := h _ (by simp)
        rw [putBlock, upsert, replaceBlock?_append hpre hfirst]
        exact .replaced hpre hfirst
    | _ => simp at hview
  · by_cases hpart : key.part ∈ d.anchorParts
    · obtain ⟨pre, node, post, rfl, hview, hpre⟩ := exists_first hpart
      cases node with
      | anchor line part indent =>
          obtain rfl : part = key.part := by simpa [Node.part?] using hview
          have hanchor : (Node.anchor line key.part indent).Readable := h _ (by simp)
          rw [putBlock, upsert, replaceBlock?_eq_none hkey, insertBlock?_append hpre]
          exact .inserted hkey hpre hanchor
      | _ => simp [Node.part?] at hview
    · obtain ⟨pre, post, rfl, hpost, happend⟩ := append_eq d key body
      rw [putBlock, upsert, replaceBlock?_eq_none hkey, insertBlock?_eq_none hpart]
      simp only [happend]
      exact .appended hkey hpart hpost

theorem put_putBlock {d : Document} (h : d.Faithful) (key : BlockKey) (body : String) :
    Put key body d (d.putBlock key body).1 (d.putBlock key body).2 :=
  put_of_readable h.readable key body

theorem replaceBlock?_ne_error {d : Document} (h : d.Readable) (key : BlockKey) (body : String)
    (fault : UpsertFault) : d.replaceBlock? key body ≠ some (.error fault) := by
  induction d with
  | nil => exact nofun
  | cons node d ih =>
      obtain ⟨hnode, hrest⟩ := List.forall_mem_cons.mp h
      by_cases hkey : node.key? = some key
      · cases node with
        | block k first old last =>
            obtain rfl : k = key := by simpa [Node.key?] using hkey
            obtain ⟨indent, hfirst⟩ := hnode
            simp [replaceBlock?, hfirst]
        | _ => simp [Node.key?] at hkey
      · rw [replaceBlock?_cons_of_ne hkey]
        intro hreplace
        obtain ⟨result, hresult, hmap⟩ := Option.map_eq_some_iff.mp hreplace
        cases result with
        | ok d => exact nomatch hmap
        | error found => exact ih hrest (hresult.trans (congrArg _ hmap))

/-- In a document that was read, a block can be put in unless its section has no anchor. -/
theorem Faithful.upsert_ne_brokenMarker {d : Document} (h : d.Faithful) (key : BlockKey)
    (body : String) : d.upsert key body ≠ .error .brokenMarker := by
  rw [upsert]
  cases hreplace : d.replaceBlock? key body with
  | some result =>
      rintro rfl
      exact replaceBlock?_ne_error h.readable key body _ hreplace
  | none => cases d.insertBlock? key body <;> exact nofun

end Document

/-! ### The block that is put in -/

/-- The body lines of a block that is given as a text. -/
def blockBody (body : String) : List String :=
  Text.splitLines (String.ofList (Text.dropWhileEnd (· == '\n') body.toList))

theorem makeBlock_eq (key : BlockKey) (body indent : String) :
    makeBlock key body indent =
      .block key (indent ++ beginMarker key.part key.api) (blockBody body)
        (indent ++ endMarker key.part key.api) := by
  simp [makeBlock, blockBody, Text.splitLines]

theorem mem_of_mem_blockBody {body line : String} {c : Char} (h : line ∈ blockBody body)
    (hc : c ∈ line.toList) : c ∈ body.toList := by
  have hmem := Text.mem_of_mem_splitLines h hc
  rw [String.toList_ofList] at hmem
  exact (Text.dropWhileEnd_prefix _ _).subset hmem

/-- The line feeds at the end of a text make no lines but empty ones. -/
theorem mem_splitLines_of_mem_blockBody {body line : String} (h : line ∈ blockBody body) :
    line ∈ Text.splitLines body := by
  obtain ⟨part, hpart, rfl⟩ := List.mem_map.mp h
  refine List.mem_map_of_mem ?_
  rw [String.toList_ofList, Text.splitOnChar_eq_splitOn] at hpart
  rw [Text.splitOnChar_eq_splitOn]
  have hsplit := List.rdropWhile_append_rtakeWhile (p := (· == '\n')) (l := body.toList)
  change part ∈ (body.toList.rdropWhile (· == '\n')).splitOn '\n' at hpart
  cases htail : body.toList.rtakeWhile (· == '\n') with
  | nil =>
      rw [htail, List.append_nil] at hsplit
      rwa [hsplit] at hpart
  | cons c more =>
      -- cut at the first of the line feeds that were dropped
      have hmem : c ∈ body.toList.rtakeWhile (· == '\n') := by simp [htail]
      obtain rfl := eq_of_beq (List.mem_rtakeWhile_imp (p := (· == '\n')) hmem)
      rw [← hsplit, htail, List.splitOn_append_cons_self]
      exact List.mem_append_left _ hpart

theorem isBody_blockBody {key : BlockKey} {body : String}
    (h : IsBody key (Text.splitLines body)) : IsBody key (blockBody body) :=
  fun line hline => h line (mem_splitLines_of_mem_blockBody hline)

/-- A text that does not end in a line feed makes just its lines. -/
theorem blockBody_eq {body : String} (h : ∀ c ∈ body.toList.getLast?, c ≠ '\n') :
    blockBody body = Text.splitLines body := by
  rw [blockBody, Text.dropWhileEnd_eq_self (by simpa using h), String.ofList_toList]

theorem body_eq_of_makeBlock_eq {key : BlockKey} {body body' indent indent' : String}
    (h : ∀ c ∈ body.toList.getLast?, c ≠ '\n') (h' : ∀ c ∈ body'.toList.getLast?, c ≠ '\n')
    (heq : makeBlock key body indent = makeBlock key body' indent') : body = body' := by
  rw [makeBlock_eq, makeBlock_eq, blockBody_eq h, blockBody_eq h'] at heq
  rw [← Text.joinLines_splitLines body, (Node.block.inj heq).2.2.1, Text.joinLines_splitLines]

theorem isBlock_makeBlock {key : BlockKey} {body indent : String} (hkey : key.Valid)
    (hbody : IsBody key (Text.splitLines body)) (hindent : IsIndent indent) :
    IsBlock key (indent ++ beginMarker key.part key.api) (blockBody body)
      (indent ++ endMarker key.part key.api) where
  first := ⟨indent, begin?_beginMarker hindent hkey⟩
  body := isBody_blockBody hbody
  last := end?_endMarker hindent hkey

theorem harmless_makeBlock {key : BlockKey} {body indent : String} (hkey : key.Valid)
    (hbody : IsBody key (Text.splitLines body)) (hindent : IsIndent indent) :
    (makeBlock key body indent).Harmless := by
  rw [makeBlock_eq]
  exact .block (isBlock_makeBlock hkey hbody hindent)

theorem harmless_blank : (Node.text "").Harmless := by
  have hblank : (Node.ofLine "").Harmless := .line (by decide) (by decide)
  exact hblank

theorem harmless_directive {line : String} (h : isImportLine line = true) :
    (Node.directive line).Harmless := by
  obtain ⟨hbegin, hend, hanchor⟩ := no_marker_of_isImportLine h
  have hnode : Node.ofLine line = .directive line := by simp [Node.ofLine, hanchor, h]
  exact hnode ▸ .line hbegin hend

namespace Document

theorem isIndent_of_begin? {line indent : String} {key : BlockKey}
    (h : begin? line = some (indent, key)) : IsIndent indent :=
  (begin?_eq_some_iff.mp h).1

theorem isIndent_of_anchor? {line indent part : String}
    (h : Aggregate.anchor? line = some (indent, part)) : IsIndent indent :=
  (anchor?_eq_some_iff.mp h).1

theorem Put.faithful {key : BlockKey} {body : String} {d d' : Document} {anchored : Bool}
    (h : Put key body d d' anchored) (hkey : key.Valid)
    (hbody : IsBody key (Text.splitLines body)) (hd : d.Faithful) : d'.Faithful := by
  cases h with
  | @replaced pre post first last indent old hpre hfirst =>
      rw [makeBlock_eq]
      exact hd.replace (isBlock_makeBlock hkey hbody (isIndent_of_begin? hfirst))
  | @inserted pre post line indent _ hpre hanchor =>
      refine hd.insert [makeBlock key body indent, .text ""] ?_
      simp only [List.mem_cons, List.not_mem_nil, or_false]
      rintro node (rfl | rfl)
      · exact harmless_makeBlock hkey hbody (isIndent_of_anchor? hanchor)
      · exact harmless_blank
  | @appended pre post _ hpart hpost =>
      refine hd.insert [.text "", makeBlock key body ""] ?_
      simp only [List.mem_cons, List.not_mem_nil, or_false]
      rintro node (rfl | rfl)
      · exact harmless_blank
      · exact harmless_makeBlock hkey hbody (by simp [IsIndent])

/-! ### Import lines -/

/-- Whether a normal form is new beside those that are known. -/
def isNew (known : List String) (key : String) : Bool :=
  decide (key ≠ "") && !known.contains key

theorem isNew_iff {known : List String} {key : String} :
    isNew known key = true ↔ key ≠ "" ∧ key ∉ known := by
  simp [isNew]

theorem isNew_cons (known : List String) (first key : String) :
    isNew (first :: known) key = (!(key == first) && isNew known key) := by
  rw [isNew, isNew, List.contains_cons]
  cases (key == first) <;> simp

theorem freshImports_eq (known imports : List String) :
    freshImports known imports =
      ((imports.map normalizeImport).filter (isNew known)).eraseDups := by
  induction imports generalizing known with
  | nil => rfl
  | cons line imports ih =>
      rw [freshImports, List.map_cons, List.filter_cons]
      by_cases hnew : isNew known (normalizeImport line) = true
      · have hskip : ¬ (decide (normalizeImport line = "") ||
            known.contains (normalizeImport line)) = true := by
          simpa [isNew_iff] using hnew
        have hfilter : (imports.map normalizeImport).filter
              (isNew (normalizeImport line :: known)) =
            ((imports.map normalizeImport).filter (isNew known)).filter
              fun key => !(key == normalizeImport line) := by
          rw [List.filter_filter]
          exact List.filter_congr fun key _ => isNew_cons known _ key
        rw [if_neg hskip, if_pos hnew, List.eraseDups_cons, ih, hfilter]
      · have hskip : (decide (normalizeImport line = "") ||
            known.contains (normalizeImport line)) = true := by
          simpa [isNew_iff, imp_iff_not_or] using hnew
        rw [if_pos hskip, if_neg hnew, ih]

theorem mem_freshImports {known imports : List String} {key : String} :
    key ∈ freshImports known imports ↔
      (∃ line ∈ imports, normalizeImport line = key) ∧ key ≠ "" ∧ key ∉ known := by
  rw [freshImports_eq, List.mem_eraseDups, List.mem_filter, List.mem_map, isNew_iff]

/-- What becomes of a document when new imports are put in. -/
inductive Imported (fresh : List String) : Document → Document → Prop where
  | nothing {d : Document} (hfresh : fresh = []) : Imported fresh d d
  | after {pre post : Document} {line : String} (hpost : importKeys post = []) :
      Imported fresh (pre ++ .directive line :: post)
        (pre ++ .directive line :: (fresh.map .directive ++ post))
  | top {d : Document} (hfresh : fresh ≠ []) (hd : importKeys d = []) :
      Imported fresh d (fresh.map .directive ++ .text "" :: d)

theorem importKeys_eq_nil_cons {node : Node} {d : Document} :
    importKeys (node :: d) = [] ↔ node.importKey? = none ∧ importKeys d = [] := by
  rw [importKeys_eq, importKeys_eq, List.filterMap_cons]
  cases node.importKey? <;> simp

theorem insertAfterImports?_eq_none {d : Document} (h : importKeys d = []) (added : List Node) :
    insertAfterImports? added d = none := by
  induction d with
  | nil => rfl
  | cons node d ih =>
      obtain ⟨hnode, hd⟩ := importKeys_eq_nil_cons.mp h
      cases node with
      | directive line => simp [Node.importKey?] at hnode
      | _ => simp only [insertAfterImports?, ih hd]

theorem insertAfterImports?_append {post : Document} (h : importKeys post = [])
    (added : List Node) (pre : Document) (line : String) :
    insertAfterImports? added (pre ++ .directive line :: post) =
      some (pre ++ .directive line :: (added ++ post)) := by
  induction pre with
  | nil => simp [insertAfterImports?, insertAfterImports?_eq_none h]
  | cons node pre ih => simp only [List.cons_append, insertAfterImports?, ih]

/-- A document has no imports, or a last one. -/
theorem last_import (d : Document) :
    importKeys d = [] ∨ ∃ pre line post, d = pre ++ .directive line :: post ∧
      importKeys post = [] := by
  induction d with
  | nil => exact .inl rfl
  | cons node d ih =>
      rcases ih with hd | ⟨pre, line, post, rfl, hpost⟩
      · cases node with
        | directive line => exact .inr ⟨[], line, d, rfl, hd⟩
        | _ => exact .inl hd
      · exact .inr ⟨node :: pre, line, post, rfl, hpost⟩

theorem addImports_eq_self {d : Document} {imports : List String}
    (h : freshImports d.importKeys imports = []) : (d.addImports imports).1 = d := by
  simp [addImports, h]

theorem addImports_append {post : Document} (hpost : importKeys post = []) (imports : List String)
    (pre : Document) (line : String) :
    (addImports (pre ++ .directive line :: post) imports).1 =
      pre ++ .directive line ::
        ((freshImports (importKeys (pre ++ .directive line :: post)) imports).map .directive ++
          post) := by
  rw [addImports]
  split
  · rename_i hnone
    rw [List.isEmpty_iff.mp hnone]
    rfl
  · rw [insertAfterImports?_append hpost]
    rfl

theorem addImports_top {d : Document} {imports : List String} (hd : d.importKeys = [])
    (hfresh : freshImports d.importKeys imports ≠ []) :
    (d.addImports imports).1 =
      (freshImports d.importKeys imports).map .directive ++ .text "" :: d := by
  rw [addImports, insertAfterImports?_eq_none hd]
  simp [hfresh]

theorem imported_addImports (d : Document) (imports : List String) :
    Imported (freshImports d.importKeys imports) d (d.addImports imports).1 := by
  rcases last_import d with hd | ⟨pre, line, post, rfl, hpost⟩
  · by_cases hfresh : freshImports d.importKeys imports = []
    · rw [addImports_eq_self hfresh]
      exact .nothing hfresh
    · rw [addImports_top hd hfresh]
      exact .top hfresh hd
  · rw [addImports_append hpost]
    exact .after hpost

theorem Imported.mem_importKeys {fresh : List String} {d d' : Document} (h : Imported fresh d d')
    (key : String) :
    key ∈ d'.importKeys ↔ key ∈ d.importKeys ∨ key ∈ fresh.map normalizeImport := by
  have hfresh : importKeys (fresh.map .directive) = fresh.map normalizeImport := by
    simp [importKeys_eq, List.filterMap_map, Node.importKey?, Function.comp_def]
  cases h with
  | nothing hnil => simp [hnil]
  | after _ =>
      simp only [importKeys_append, mem_importKeys_cons, List.mem_append, hfresh]
      rw [or_assoc, or_assoc, or_comm (a := key ∈ fresh.map normalizeImport)]
  | top _ _ =>
      simp only [importKeys_append, mem_importKeys_cons, List.mem_append, hfresh, Node.importKey?,
        reduceCtorEq, false_or]
      rw [or_comm]

theorem Imported.faithful {fresh : List String} {d d' : Document} (h : Imported fresh d d')
    (hfresh : ∀ key ∈ fresh, isImportLine key = true) (hd : d.Faithful) : d'.Faithful := by
  have hadded : ∀ node ∈ fresh.map Node.directive, node.Harmless := by
    intro node hnode
    obtain ⟨key, hkey, rfl⟩ := List.mem_map.mp hnode
    exact harmless_directive (hfresh key hkey)
  cases h with
  | nothing => exact hd
  | @after pre post line hpost =>
      have hview : Faithful ((pre ++ [.directive line]) ++ post) := by simpa using hd
      simpa using hview.insert _ hadded
  | top _ _ => exact (hd.cons_harmless harmless_blank).append_harmless hadded

end Document

end DartScaffold.Aggregate
