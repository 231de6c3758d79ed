import DartScaffold.Proofs.Aggregate.History
import DartScaffold.Proofs.Aggregate.Run

/-!
An aggregate file as an ordered map. Where a skeleton without blocks has one anchor for each section,
any sequence of calls leaves the skeleton with its blocks before the anchors: `dress log` puts them
there, by the log of what was supplied. One more block is one more entry of the log, and import lines
go in without regard to the blocks, so the file after a run is a function of the log and the imports.
-/

namespace DartScaffold.Aggregate

open Disk (Location WriteMode)

namespace Document

/-- The blocks of some APIs in a section, each with a blank line after it. -/
def blocksOf (log : List Supply) (part indent : String) (apis : List String) : Document :=
  apis.flatMap fun api =>
    [.block ⟨part, api⟩ (indent ++ beginMarker part api) (blockBody (latest log ⟨part, api⟩))
      (indent ++ endMarker part api), .text ""]

def dressNode (log : List Supply) : Node → Document
  | .anchor line part indent =>
    blocksOf log part indent (contributors log part) ++ [.anchor line part indent]
  | node => [node]

/-- The document with the blocks of the log before its anchors. -/
def dress (log : List Supply) (d : Document) : Document :=
  d.flatMap (dressNode log)

/-! ### Blocks before one anchor -/

section Blocks

variable {log : List Supply} {part indent : String}

theorem blocksOf_cons (log : List Supply) (part indent api : String) (apis : List String) :
    blocksOf log part indent (api :: apis) =
      makeBlock ⟨part, api⟩ (latest log ⟨part, api⟩) indent :: .text "" ::
        blocksOf log part indent apis := by
  rw [makeBlock_eq]
  rfl

theorem blocksOf_append (log : List Supply) (part indent : String) (apis more : List String) :
    blocksOf log part indent (apis ++ more) =
      blocksOf log part indent apis ++ blocksOf log part indent more :=
  List.flatMap_append

theorem mem_blockKeys_blocksOf {key : BlockKey} {apis : List String} :
    key ∈ blockKeys (blocksOf log part indent apis) ↔ key.part = part ∧ key.api ∈ apis := by
  induction apis with
  | nil => simp [blocksOf, blockKeys]
  | cons api apis ih =>
      rw [blocksOf_cons, mem_blockKeys_cons, mem_blockKeys_cons, ih, List.mem_cons]
      obtain ⟨p, a⟩ := key
      simp only [Node.key?_makeBlock, Node.key?_text, Option.some.injEq, BlockKey.mk.injEq,
        reduceCtorEq, false_or]
      constructor
      · rintro (⟨rfl, rfl⟩ | ⟨rfl, ha⟩)
        · exact ⟨rfl, .inl rfl⟩
        · exact ⟨rfl, .inr ha⟩
      · rintro ⟨rfl, rfl | ha⟩
        · exact .inl ⟨rfl, rfl⟩
        · exact .inr ⟨rfl, ha⟩

@[simp] theorem anchorParts_blocksOf (apis : List String) :
    anchorParts (blocksOf log part indent apis) = [] := by
  induction apis with
  | nil => rfl
  | cons api apis ih => rw [blocksOf_cons]; exact ih

@[simp] theorem importKeys_blocksOf (apis : List String) :
    importKeys (blocksOf log part indent apis) = [] := by
  induction apis with
  | nil => rfl
  | cons api apis ih => rw [blocksOf_cons]; exact ih

theorem blocksOf_concat {supply : Supply} {apis : List String}
    (h : supply.key.part = part → supply.key.api ∉ apis) :
    blocksOf (log ++ [supply]) part indent apis = blocksOf log part indent apis := by
  induction apis with
  | nil => simp [blocksOf]
  | cons api apis ih =>
      have hne : supply.key ≠ ⟨part, api⟩ := by
        intro heq
        exact h (by rw [heq]) (by rw [heq]; exact List.mem_cons_self)
      have hrest := ih fun hpart hapi => h hpart (List.mem_cons_of_mem _ hapi)
      rw [blocksOf_cons, blocksOf_cons, latest_concat_of_ne hne, hrest]

end Blocks

/-! ### Whole documents -/

section Dress

variable {log : List Supply} {t : Document}

@[simp] theorem dress_append (log : List Supply) (d e : Document) :
    dress log (d ++ e) = dress log d ++ dress log e :=
  List.flatMap_append

@[simp] theorem dress_cons (log : List Supply) (node : Node) (d : Document) :
    dress log (node :: d) = dressNode log node ++ dress log d := rfl

@[simp] theorem dress_nil (t : Document) : dress [] t = t := by
  induction t with
  | nil => rfl
  | cons node t ih =>
      rw [dress_cons, ih]
      cases node <;> rfl

@[simp] theorem anchorParts_dress (log : List Supply) (t : Document) :
    anchorParts (dress log t) = anchorParts t := by
  induction t with
  | nil => rfl
  | cons node t ih =>
      rw [dress_cons, anchorParts_append, ih]
      cases node with
      | anchor line part indent =>
          rw [dressNode, anchorParts_append, anchorParts_blocksOf]
          rfl
      | _ => rfl

@[simp] theorem importKeys_dress (log : List Supply) (t : Document) :
    importKeys (dress log t) = importKeys t := by
  induction t with
  | nil => rfl
  | cons node t ih =>
      rw [dress_cons, importKeys_append, ih]
      cases node with
      | anchor line part indent =>
          rw [dressNode, importKeys_append, importKeys_blocksOf]
          rfl
      | _ => rfl

theorem blockKeys_dress {key : BlockKey} (h : key ∈ blockKeys (dress log t)) :
    key ∈ blockKeys t ∨ (key.part ∈ anchorParts t ∧ key.api ∈ contributors log key.part) := by
  induction t with
  | nil => simp [dress, blockKeys] at h
  | cons node t ih =>
      rw [dress_cons, blockKeys_append, List.mem_append] at h
      rw [mem_blockKeys_cons, mem_anchorParts_cons]
      rcases h with h | h
      · cases node with
        | anchor line part indent =>
            rw [dressNode, blockKeys_append, List.mem_append, mem_blockKeys_blocksOf] at h
            rcases h with ⟨rfl, hapi⟩ | h
            · exact .inr ⟨.inl rfl, hapi⟩
            · simp [blockKeys] at h
        | block k first body last =>
            obtain rfl : key = k := by simpa [dressNode, blockKeys] using h
            exact .inl (.inl rfl)
        | _ => simp [dressNode, blockKeys] at h
      · exact (ih h).imp .inr (And.imp_left .inr)

theorem dress_concat_of_not_mem {supply : Supply} (h : supply.key.part ∉ anchorParts t) :
    dress (log ++ [supply]) t = dress log t := by
  induction t with
  | nil => simp [dress]
  | cons node t ih =>
      obtain ⟨hnode, ht⟩ := not_or.mp (mem_anchorParts_cons.not.mp h)
      rw [dress_cons, dress_cons, ih ht]
      cases node with
      | anchor line part indent =>
          have hne : supply.key.part ≠ part := fun heq => hnode (by rw [heq]; rfl)
          rw [dressNode, dressNode, contributors_concat_of_ne hne,
            blocksOf_concat fun heq => absurd heq hne]
      | _ => rfl

end Dress

/-! ### One more entry of the log -/

/-- Without blocks, and with one anchor for each section. -/
structure IsSkeleton (t : Document) : Prop where
  empty : t.blockKeys = []
  distinct : t.anchorParts.Nodup
  indents : ∀ line part indent, .anchor line part indent ∈ t → IsIndent indent

section Step

variable {log : List Supply} {t : Document} {key : BlockKey} {body : String}

/-- A document with the blocks before one anchor in view. -/
theorem dress_anchor {part api : String} {front back : List String}
    (h : contributors log part = front ++ api :: back) (pre post : Document)
    (line indent : String) :
    dress log (pre ++ .anchor line part indent :: post) =
      (dress log pre ++ blocksOf log part indent front) ++
        makeBlock ⟨part, api⟩ (latest log ⟨part, api⟩) indent :: .text "" ::
          (blocksOf log part indent back ++ .anchor line part indent :: dress log post) := by
  rw [dress_append, dress_cons, dressNode, h, blocksOf_append, blocksOf_cons]
  simp

theorem IsSkeleton.exists_anchor (ht : t.IsSkeleton) {part : String} (h : part ∈ t.anchorParts) :
    ∃ pre line indent post, t = pre ++ .anchor line part indent :: post ∧ IsIndent indent ∧
      part ∉ anchorParts pre ∧ part ∉ anchorParts post := by
  obtain ⟨pre, node, post, rfl, hview, hpre⟩ := exists_first h
  cases node with
  | anchor line p indent =>
      obtain rfl : p = part := by simpa [Node.part?] using hview
      refine ⟨pre, line, indent, post, rfl, ht.indents line p indent (by simp), hpre, ?_⟩
      have hdistinct := ht.distinct
      rw [anchorParts_append] at hdistinct
      exact (List.nodup_cons.mp (List.nodup_append.mp hdistinct).2.1).1
  | _ => contradiction

/-- An API that is there already has its block replaced. -/
theorem putBlock_dress_of_mem (ht : t.IsSkeleton) (hkey : key.Valid)
    (hpart : key.part ∈ t.anchorParts) (hapi : key.api ∈ contributors log key.part) :
    (dress log t).putBlock key body = (dress (log ++ [⟨key, body⟩]) t, true) := by
  obtain ⟨pre, line, indent, post, rfl, hindent, hpre, hpost⟩ := ht.exists_anchor hpart
  -- the API is once among the contributors, so one block alone can have the key
  obtain ⟨front, back, hsplit⟩ := List.append_of_mem hapi
  have hdistinct := nodup_contributors log key.part
  rw [hsplit] at hdistinct
  obtain ⟨-, htail, hcross⟩ := List.nodup_append.mp hdistinct
  have hfront : key.api ∉ front := fun h => hcross _ h _ List.mem_cons_self rfl
  have hback : key.api ∉ back := (List.nodup_cons.mp htail).1
  have hfirst : key ∉ blockKeys (dress log pre ++ blocksOf log key.part indent front) := by
    rw [blockKeys_append, List.mem_append, mem_blockKeys_blocksOf, not_or]
    refine ⟨fun hmem => ?_, fun hmem => hfront hmem.2⟩
    have hempty := ht.empty
    rw [blockKeys_append, List.append_eq_nil_iff] at hempty
    rcases blockKeys_dress hmem with h | h
    · simp [hempty.1] at h
    · exact hpre h.1
  have hagain : contributors (log ++ [⟨key, body⟩]) key.part = front ++ key.api :: back := by
    rw [contributors_concat rfl, if_pos hapi, hsplit]
  have hreplace := replaceBlock?_append hfirst (begin?_beginMarker hindent hkey) body
    (indent ++ endMarker key.part key.api) (blockBody (latest log key)) (.text "" ::
      (blocksOf log key.part indent back ++ .anchor line key.part indent :: dress log post))
  rw [← makeBlock_eq] at hreplace
  rw [putBlock, upsert, dress_anchor hsplit, hreplace, dress_anchor hagain,
    blocksOf_concat fun _ => hfront, blocksOf_concat fun _ => hback,
    latest_concat_self log ⟨key, body⟩, dress_concat_of_not_mem hpre,
    dress_concat_of_not_mem hpost]

/-- A new one has its block inserted after the others. -/
theorem putBlock_dress_of_not_mem (ht : t.IsSkeleton) (hpart : key.part ∈ t.anchorParts)
    (hapi : key.api ∉ contributors log key.part) :
    (dress log t).putBlock key body = (dress (log ++ [⟨key, body⟩]) t, true) := by
  have hnone : key ∉ blockKeys (dress log t) := by
    intro hmem
    rcases blockKeys_dress hmem with h | h
    · simp [ht.empty] at h
    · exact hapi h.2
  obtain ⟨pre, line, indent, post, rfl, hindent, hpre, hpost⟩ := ht.exists_anchor hpart
  have hfirst : key.part ∉ anchorParts
      (dress log pre ++ blocksOf log key.part indent (contributors log key.part)) := by
    simpa using hpre
  have hagain : contributors (log ++ [⟨key, body⟩]) key.part =
      contributors log key.part ++ [key.api] := by
    rw [contributors_concat rfl, if_neg hapi]
  have hview : dress log (pre ++ .anchor line key.part indent :: post) =
      (dress log pre ++ blocksOf log key.part indent (contributors log key.part)) ++
        .anchor line key.part indent :: dress log post := by
    simp [dressNode]
  have hinsert := insertBlock?_append hfirst body line indent (dress log post)
  rw [← hview] at hinsert
  rw [putBlock, upsert, replaceBlock?_eq_none hnone, hinsert, dress_anchor hagain,
    blocksOf_concat fun _ => hapi, latest_concat_self log ⟨key, body⟩,
    dress_concat_of_not_mem hpre, dress_concat_of_not_mem hpost]
  rfl

theorem putBlock_dress (ht : t.IsSkeleton) (hkey : key.Valid) (hpart : key.part ∈ t.anchorParts)
    (log : List Supply) (body : String) :
    (dress log t).putBlock key body = (dress (log ++ [⟨key, body⟩]) t, true) := by
  by_cases hapi : key.api ∈ contributors log key.part
  · exact putBlock_dress_of_mem ht hkey hpart hapi
  · exact putBlock_dress_of_not_mem ht hpart hapi

theorem putBlocks_dress (ht : t.IsSkeleton) {api : String} {blocks : List (String × String)}
    (hblocks : ∀ block ∈ blocks, BlockKey.Valid ⟨block.1, api⟩ ∧ block.1 ∈ t.anchorParts)
    (log : List Supply) :
    putBlocks api (dress log t) blocks =
      (dress (log ++ blocks.map fun block => ⟨⟨block.1, api⟩, block.2⟩) t, []) := by
  induction blocks generalizing log with
  | nil => simp [putBlocks]
  | cons block blocks ih =>
      obtain ⟨⟨hkey, hpart⟩, hrest⟩ := List.forall_mem_cons.mp hblocks
      rw [putBlocks, putBlock_dress ht hkey hpart]
      simp only [ih hrest, if_true, List.map_cons, List.append_assoc, List.singleton_append]

end Step

/-! ### Imports -/

section Imports

variable {fresh keys : List String} {s t : Document}

theorem Imported.blockKeys (h : Imported fresh s t) : t.blockKeys = s.blockKeys := by
  cases h with
  | nothing => rfl
  | after => simp [blockKeys_eq, List.filterMap_cons, List.filterMap_map, Function.comp_def]
  | top => simp [blockKeys_eq, List.filterMap_cons, List.filterMap_map, Function.comp_def]

theorem Imported.anchorParts (h : Imported fresh s t) : t.anchorParts = s.anchorParts := by
  have hparts : Document.anchorParts (fresh.map .directive) = [] := by
    simp [Document.anchorParts, List.filterMap_map, Node.part?, Function.comp_def]
  cases h with
  | nothing => rfl
  | @after pre post line =>
      rw [anchorParts_append, anchorParts_append, List.append_cancel_left_eq]
      change Document.anchorParts (fresh.map .directive ++ post) = Document.anchorParts post
      rw [anchorParts_append, hparts, List.nil_append]
  | top =>
      rw [anchorParts_append, hparts]
      rfl

theorem Imported.isSkeleton (h : Imported fresh s t) (hs : s.IsSkeleton) : t.IsSkeleton where
  empty := h.blockKeys.trans hs.empty
  distinct := h.anchorParts ▸ hs.distinct
  indents := by
    intro line part indent hmem
    refine hs.indents line part indent ?_
    cases h with
    | nothing => exact hmem
    | after => simpa using hmem
    | top => simpa using hmem

/-- Imports that are added later come after those that were added before. -/
theorem Imported.addImports (h : Imported keys s t) (imports : List String) :
    Imported (keys ++ freshImports t.importKeys imports) s (t.addImports imports).1 := by
  cases h with
  | nothing hnone =>
      rw [hnone]
      exact imported_addImports s imports
  | @after pre post line hpost =>
      rcases List.eq_nil_or_concat' keys with rfl | ⟨front, last, rfl⟩
      · rw [List.map_nil, List.nil_append, List.nil_append, addImports_append hpost]
        exact .after hpost
      · -- the last import is now the last of `keys`
        have hview : pre ++ .directive line :: ((front ++ [last]).map .directive ++ post) =
            (pre ++ .directive line :: front.map .directive) ++ .directive last :: post := by simp
        rw [hview, addImports_append hpost]
        generalize freshImports _ imports = more
        have hafter : Imported (front ++ [last] ++ more) (pre ++ .directive line :: post) _ :=
          .after hpost
        simpa using hafter
  | top hne hs =>
      rcases List.eq_nil_or_concat' keys with rfl | ⟨front, last, rfl⟩
      · contradiction
      · have hview : (front ++ [last]).map Node.directive ++ .text "" :: s =
            front.map .directive ++ .directive last :: .text "" :: s := by simp
        have hpost : importKeys (.text "" :: s) = [] := hs
        rw [hview, addImports_append hpost]
        generalize freshImports _ imports = more
        have htop : Imported (front ++ [last] ++ more) s _ := .top (by simp) hs
        simpa using htop

theorem dress_directives (log : List Supply) (keys : List String) :
    dress log (keys.map .directive) = keys.map .directive := by
  induction keys with
  | nil => rfl
  | cons key keys ih => rw [List.map_cons, dress_cons, ih]; rfl

/-- Imports go where they would go without the blocks. -/
theorem addImports_dress (log : List Supply) (t : Document) (imports : List String) :
    ((dress log t).addImports imports).1 = dress log (t.addImports imports).1 := by
  have hkeys : importKeys (dress log t) = importKeys t := importKeys_dress log t
  rcases last_import t with ht | ⟨pre, line, post, rfl, hpost⟩
  · by_cases hfresh : freshImports t.importKeys imports = []
    · rw [addImports_eq_self hfresh, addImports_eq_self (by rwa [hkeys])]
    · rw [addImports_top ht hfresh, addImports_top (by rwa [hkeys]) (by rwa [hkeys]), hkeys,
        dress_append, dress_directives]
      rfl
  · have hpost' : importKeys (dress log post) = [] := by rw [importKeys_dress, hpost]
    have hview : dress log (pre ++ .directive line :: post) =
        dress log pre ++ .directive line :: dress log post := by
      rw [dress_append]
      rfl
    rw [addImports_append hpost, ← hkeys, hview, addImports_append hpost', dress_append,
      dress_cons, dress_append, dress_directives]
    rfl

end Imports

end Document

/-! ### Calls -/

/-- A fragment that was made for a skeleton. -/
structure Fragment.FitsIn (f : Fragment) (skeleton : String) : Prop where
  wellFormed : f.WellFormed
  same : f.skeleton = skeleton
  parts : ∀ block ∈ f.blocks, block.1 ∈ (Document.parse skeleton).anchorParts

/-- What the file reads as after some calls: the skeleton with the new imports, and before its anchors
the blocks of the APIs. -/
def Document.IsAfter (s : Document) (fs : List Fragment) (d : Document) : Prop :=
  ∃ t, Imported (newImportKeys s.importKeys fs) s t ∧ d = dress (supplyLog fs) t

section Calls

variable {s d : Document} {skeleton : String} {f : Fragment} {done fs : List Fragment}

theorem Document.isSkeleton_parse (hempty : (parse skeleton).blockKeys = [])
    (hdistinct : (parse skeleton).anchorParts.Nodup) : (parse skeleton).IsSkeleton where
  empty := hempty
  distinct := hdistinct
  indents := by
    intro line part indent hmem
    obtain ⟨pre, post, hsplit⟩ := List.append_of_mem hmem
    have hfaithful := (sound_parse skeleton).faithful
    rw [hsplit] at hfaithful
    exact isIndent_of_anchor? hfaithful.anchor?

theorem Document.isAfter_nil (s : Document) : s.IsAfter [] s :=
  ⟨s, .nothing rfl, by simp [supplyLog]⟩

/-- A call adds its supplies to the log and its imports to the imports. -/
theorem Document.IsAfter.merge (h : s.IsAfter done d) (hs : s.IsSkeleton) (hf : f.WellFormed)
    (hparts : ∀ block ∈ f.blocks, block.1 ∈ s.anchorParts) :
    (d.merge f).2 = [] ∧ s.IsAfter (done ++ [f]) (d.merge f).1 := by
  obtain ⟨t, ht, rfl⟩ := h
  have hnext := ht.addImports f.imports
  have hkeys : ∀ key ∈ newImportKeys s.importKeys done, normalizeImport key = key := by
    intro key hkey
    rw [newImportKeys_eq, mem_freshImports] at hkey
    obtain ⟨⟨line, -, rfl⟩, -⟩ := hkey
    exact normalizeImport_normalizeImport line
  have hknown : ∀ key, key ∈ t.importKeys ↔
      key ∈ s.importKeys ++ newImportKeys s.importKeys done := by
    intro key
    rw [ht.mem_importKeys, List.map_congr_left hkeys, List.map_id', List.mem_append]
  rw [freshImports_congr hknown, ← newImportKeys_concat] at hnext
  have hblocks : ∀ block ∈ f.blocks,
      BlockKey.Valid ⟨block.1, f.api⟩ ∧ block.1 ∈ (t.addImports f.imports).1.anchorParts := by
    intro block hblock
    rw [hnext.anchorParts]
    exact ⟨hf.valid hblock, hparts block hblock⟩
  rw [Document.merge, addImports_dress, putBlocks_dress (hnext.isSkeleton hs) hblocks]
  exact ⟨rfl, _, hnext, by rw [supplyLog_concat]; rfl⟩

theorem Document.isAfter_mergeAll (hs : (parse skeleton).IsSkeleton)
    (hfs : ∀ f ∈ fs, f.FitsIn skeleton) (existing : Option String)
    (h : (parse skeleton).IsAfter done (parse (existing.getD skeleton))) :
    (∀ sections ∈ missingAll existing fs, sections = []) ∧
      (parse skeleton).IsAfter (done ++ fs) (parse ((mergeAll existing fs).getD skeleton)) := by
  induction fs generalizing existing done with
  | nil => simpa [mergeAll, missingAll] using h
  | cons f fs ih =>
      obtain ⟨⟨hf, hskeleton, hparts⟩, hrest⟩ := List.forall_mem_cons.mp hfs
      obtain ⟨hmissing, hnext⟩ := h.merge hs hf hparts
      have hmerged : parse (mergeText existing f).1 =
          ((parse (existing.getD skeleton)).merge f).1 := by
        rw [parse_mergeText hf, hskeleton]
      rw [← hmerged] at hnext
      obtain ⟨hothers, hafter⟩ := ih hrest (some (mergeText existing f).1) hnext
      rw [missingAll, mergeAll, List.append_cons]
      refine ⟨List.forall_mem_cons.mpr ⟨?_, hothers⟩, hafter⟩
      rw [← hmissing, ← hskeleton]
      rfl

/-- A file that any calls made is the skeleton with the new imports and, before each anchor, the
blocks of the APIs that supplied its section. -/
theorem patchAll_isAfter (hempty : (Document.parse skeleton).blockKeys = [])
    (hdistinct : (Document.parse skeleton).anchorParts.Nodup)
    (hfs : ∀ f ∈ fs, f.FitsIn skeleton) :
    (Document.parse skeleton).IsAfter fs
        (Document.parse ((mergeAll none fs).getD skeleton)) ∧
      (fs ≠ [] → ∃ text, mergeAll none fs = some text) ∧
      ∀ (mode : WriteMode) (place : Location) (disk : Disk),
        disk.textIfFile place = .ok none → disk.Writable mode place →
          ∃ outcomes disk', patchAll mode place disk fs = (outcomes, disk') ∧
            disk'.textIfFile place = .ok (mergeAll none fs) ∧
            ∀ outcome ∈ outcomes, outcome.saved.isOk = true ∧ outcome.warnings = [] := by
  have hs := Document.isSkeleton_parse hempty hdistinct
  obtain ⟨hmissing, hafter⟩ :=
    Document.isAfter_mergeAll hs hfs none (Document.isAfter_nil (Document.parse skeleton))
  refine ⟨hafter, fun hne => ?_, fun mode place disk htext hdisk => ?_⟩
  · obtain ⟨f, rest, rfl⟩ := List.exists_cons_of_ne_nil hne
    exact mergeAll_some _ rest
  · obtain ⟨outcomes, disk', hrun, -, hreads, hsaved, hwarnings⟩ :=
      patchAll_writable (fun f hf => (hfs f hf).wellFormed) htext hdisk
    refine ⟨outcomes, disk', hrun, hreads, fun outcome houtcome => ?_⟩
    exact ⟨hsaved outcome houtcome, warnings_eq_nil hwarnings hmissing outcome houtcome⟩

theorem patchAll_isAfter_threeCalls :
    (Document.parse callsSkeleton).blockKeys = [] ∧
      (Document.parse callsSkeleton).anchorParts.Nodup ∧
      (∀ f ∈ [callFragment "users", callFragment "orders", callFragment "users"],
        f.FitsIn callsSkeleton) ∧
      ∃ outcomes disk, patchAll .inPlace callsPlace (.emptyAt [])
          [callFragment "users", callFragment "orders", callFragment "users"] = (outcomes, disk) ∧
        (∃ text, disk.textIfFile callsPlace = .ok (some text) ∧
          (Document.parse callsSkeleton).IsAfter
            [callFragment "users", callFragment "orders", callFragment "users"]
            (Document.parse text)) ∧
        ∀ outcome ∈ outcomes, outcome.saved.isOk = true ∧ outcome.warnings = [] := by
  have hempty : (Document.parse callsSkeleton).blockKeys = [] := by decide +kernel
  have hdistinct : (Document.parse callsSkeleton).anchorParts.Nodup := by decide +kernel
  have husers : (callFragment "users").FitsIn callsSkeleton :=
    ⟨by decide +kernel, rfl, by decide +kernel⟩
  have horders : (callFragment "orders").FitsIn callsSkeleton :=
    ⟨by decide +kernel, rfl, by decide +kernel⟩
  have hfs : ∀ f ∈ [callFragment "users", callFragment "orders", callFragment "users"],
      f.FitsIn callsSkeleton := by
    simp [husers, horders]
  obtain ⟨hafter, hsome, hdisk⟩ := patchAll_isAfter hempty hdistinct hfs
  obtain ⟨text, htext⟩ := hsome (by simp)
  obtain ⟨outcomes, disk, hrun, hreads, hall⟩ :=
    hdisk .inPlace callsPlace (.emptyAt []) textIfFile_emptyAt (writable_emptyAt .inPlace)
  rw [htext] at hafter hreads
  exact ⟨hempty, hdistinct, hfs, outcomes, disk, hrun, ⟨text, hreads, hafter⟩, hall⟩

end Calls

end DartScaffold.Aggregate
