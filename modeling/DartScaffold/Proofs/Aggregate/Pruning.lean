import DartScaffold.Proofs.Aggregate.OnDisk

/-!
Pruning a file. Where every begin marker opens a block, the lines that used to be apart cannot become
blocks when they are neighbours, so the pruned text is read back as the nodes that were left. Its blocks
are those of the APIs that are kept, and there is nothing to prune in it.
-/

namespace DartScaffold.Aggregate

open Disk (Location WriteMode)

/-- A block of an API that is kept. -/
def Node.isKeptBlock (keep : List String) (node : Node) : Bool :=
  node.key?.any fun key => keep.contains key.api

namespace Document

/-- Every begin marker opens a block. -/
def Opened (d : Document) : Prop :=
  ∀ node ∈ d, node.key? = none → ∀ line ∈ node.lines, begin? line = none

instance (d : Document) : Decidable d.Opened :=
  inferInstanceAs (Decidable (∀ node ∈ d, node.key? = none →
    ∀ line ∈ node.lines, begin? line = none))

def blocks (d : Document) : Document :=
  d.filter fun node => node.key?.isSome

section Removal

variable {d e : Document} {keep : List String}

theorem Faithful.sublist (h : d.Faithful) (hopened : d.Opened) (hsub : e.Sublist d) :
    e.Faithful := by
  induction h generalizing e with
  | nil =>
      obtain rfl := List.sublist_nil.mp hsub
      exact .nil
  | @line line d _ _ ih =>
      obtain ⟨hline, hopened⟩ := List.forall_mem_cons.mp hopened
      cases hsub with
      | cons _ hsub => exact ih hopened hsub
      | cons_cons _ hsub =>
          have hbegin : begin? line = none := hline (Node.key?_ofLine line) line (by simp)
          exact .line (by simp [hbegin]) (ih hopened hsub)
  | block hblock _ ih =>
      obtain ⟨-, hopened⟩ := List.forall_mem_cons.mp hopened
      cases hsub with
      | cons _ hsub => exact ih hopened hsub
      | cons_cons _ hsub => exact .block hblock (ih hopened hsub)

theorem Sound.sublist (h : d.Sound) (hopened : d.Opened) (hsub : e.Sublist d) (hne : e ≠ []) :
    e.Sound where
  faithful := h.faithful.sublist hopened hsub
  newlines := by
    intro line hline
    obtain ⟨node, hnode, hline⟩ := List.mem_flatMap.mp hline
    exact h.newlines line (List.mem_flatMap.mpr ⟨node, hsub.subset hnode, hline⟩)
  nonempty := hne

theorem mem_stale {api : String} :
    api ∈ d.stale keep ↔ (∃ key ∈ d.blockKeys, key.api = api) ∧ api ∉ keep := by
  simp [stale, apis, List.mem_eraseDups]

theorem stale_eq_nil : d.stale keep = [] ↔ ∀ api ∈ d.apis, api ∈ keep := by
  simp [stale, List.filter_eq_nil_iff]

theorem mem_blockKeys {key : BlockKey} : key ∈ d.blockKeys ↔ ∃ node ∈ d, node.key? = some key := by
  rw [blockKeys_eq, List.mem_filterMap]

/-- The blocks that are left are the blocks of the APIs that are kept. -/
theorem filter_prune (d : Document) (keep : List String) :
    (d.prune keep).blocks = d.filter (Node.isKeptBlock keep) := by
  have hpruned := pruned_prune d keep
  have hkept : (d.prune keep).blocks = (d.prune keep).filter (Node.isKeptBlock keep) := by
    refine List.filter_congr fun node hnode => ?_
    cases hkey : node.key? with
    | none => simp [Node.isKeptBlock, hkey]
    | some key =>
        have hapi : key.api ∈ keep := by
          by_contra hnot
          have hstale : key.api ∈ d.stale keep :=
            mem_stale.mpr ⟨⟨key, mem_blockKeys.mpr ⟨node, hpruned.sublist.subset hnode, hkey⟩, rfl⟩,
              hnot⟩
          have hother := hpruned.not_stale node hnode _ hstale
          rw [Node.isBlockOf_of_key? hkey] at hother
          contradiction
        simp [Node.isKeptBlock, hkey, hapi]
  rw [hkept]
  refine hpruned.filter rfl (fun _ => rfl) fun node hnode api hapi => ?_
  cases node with
  | block key first body last =>
      have hkeep : key.api ∈ keep := by simpa [Node.isKeptBlock] using hnode
      have hne : key.api ≠ api := fun heq => (mem_stale.mp hapi).2 (heq ▸ hkeep)
      simpa [Node.isBlockOf] using hne
  | _ => rfl

theorem prune_eq_self (h : d.stale keep = []) : d.prune keep = d := by
  simp [prune, h]

end Removal

end Document

/-! ### Texts -/

/-- What pruning makes of a text. -/
structure IsPruned (keep : List String) (text pruned : String) : Prop where
  blocks : (Document.parse pruned).blocks =
    (Document.parse text).filter (Node.isKeptBlock keep)
  /-- The nodes that are left. The text of none of them is read as an empty line. -/
  rest : ∃ left, Document.Pruned ((Document.parse text).stale keep) 0 (Document.parse text) left ∧
    pruned = left.render ∧ (left ≠ [] → Document.parse pruned = left)

section Text

variable {keep : List String} {text : String}

theorem isPruned_prune (keep : List String) (hopened : (Document.parse text).Opened) :
    IsPruned keep text ((Document.parse text).prune keep).render := by
  have hpruned := Document.pruned_prune (Document.parse text) keep
  have hblocks := Document.filter_prune (Document.parse text) keep
  generalize (Document.parse text).prune keep = left at hpruned hblocks
  have hread : left ≠ [] → Document.parse left.render = left := fun hne =>
    Document.parse_render ((Document.sound_parse text).sublist hopened hpruned.sublist hne)
  refine ⟨?_, left, hpruned, rfl, hread⟩
  by_cases hne : left = []
  · rw [← hblocks, hne]
    decide +kernel
  · rw [hread hne, hblocks]

theorem IsPruned.stale {pruned : String} (h : IsPruned keep text pruned) :
    (Document.parse pruned).stale keep = [] := by
  rw [List.eq_nil_iff_forall_not_mem]
  intro api hapi
  obtain ⟨⟨key, hkey, rfl⟩, hnot⟩ := Document.mem_stale.mp hapi
  obtain ⟨node, hnode, hview⟩ := Document.mem_blockKeys.mp hkey
  have hblock : node ∈ (Document.parse pruned).blocks :=
    List.mem_filter.mpr ⟨hnode, by simp [hview]⟩
  rw [h.blocks, List.mem_filter, Node.isKeptBlock, hview] at hblock
  exact hnot (by simpa using hblock.2)

theorem pruneText?_of_stale_nil (h : (Document.parse text).stale keep = []) :
    pruneText? keep text = none := by
  simp [pruneText?, h]

theorem pruneText?_of_stale_ne_nil (h : (Document.parse text).stale keep ≠ []) :
    pruneText? keep text = some ((Document.parse text).prune keep).render := by
  simp [pruneText?, h]

end Text

/-! ### Files -/

theorem prune_of_pruneText?_eq_none {disk : Disk} {place : Location} {keep : List String}
    {text : String} (htext : disk.textIfFile place = .ok (some text))
    (h : pruneText? keep text = none) (mode : WriteMode) :
    prune disk mode place keep = (.ok none, disk) := by
  simp [prune, htext, h]

/-- Pruning a file leaves the blocks of the APIs that are kept and takes nothing but what `Pruned` allows.
The file is not written where no API is stale, and so pruning it again changes nothing. -/
theorem prune_isPruned {disk : Disk} {mode : WriteMode} {place : Location} {text : String}
    (htext : disk.textIfFile place = .ok (some text)) (hdisk : disk.Writable mode place)
    (hopened : (Document.parse text).Opened) (keep : List String) :
    ∃ saved disk' pruned, prune disk mode place keep = (.ok saved, disk') ∧
      disk'.textIfFile place = .ok (some pruned) ∧ IsPruned keep text pruned ∧
      ((∀ api ∈ (Document.parse text).apis, api ∈ keep) → saved = none ∧ disk' = disk) ∧
      prune disk' mode place keep = (.ok none, disk') := by
  have hpruned := isPruned_prune keep hopened
  by_cases hstale : (Document.parse text).stale keep = []
  · have hnone := prune_of_pruneText?_eq_none htext (pruneText?_of_stale_nil hstale) mode
    rw [Document.prune_eq_self hstale, Document.render_parse] at hpruned
    exact ⟨none, disk, text, hnone, htext, hpruned, fun _ => ⟨rfl, rfl⟩, hnone⟩
  · have hsome := pruneText?_of_stale_ne_nil hstale
    obtain ⟨saved, disk', hsave, -, hreads⟩ := hdisk.save htext
      (carriage_not_mem_pruneText? hsome (Disk.carriage_not_mem_of_textIfFile htext))
    refine ⟨some saved, disk', _, ?_, hreads, hpruned, fun hall => ?_, ?_⟩
    · simp only [prune, htext, Option.bind_some, hsome, hsave]
      rfl
    · exact absurd (Document.stale_eq_nil.mpr hall) hstale
    · exact prune_of_pruneText?_eq_none hreads (pruneText?_of_stale_nil hpruned.stale) mode

/-- The blocks of two APIs, the second with a blank line after it, and an import for each. -/
def twoCallsText : String :=
  "import 'models/users_entity.dart';\nimport 'models/orders_entity.dart';\n\n" ++
    "  // json2dart:begin calls:users\n  void users();\n  // json2dart:end calls:users\n\n" ++
    "  // json2dart:begin calls:orders\n  void orders();\n  // json2dart:end calls:orders\n\nEOF\n"

theorem prune_isPruned_twoCalls :
    (callsDisk twoCallsText).textIfFile callsPlace = .ok (some twoCallsText) ∧
      (callsDisk twoCallsText).Writable .replace callsPlace ∧
      (Document.parse twoCallsText).Opened ∧
      ∃ pruned, IsPruned ["users"] twoCallsText pruned ∧
        (prune (callsDisk twoCallsText) .replace callsPlace ["users"]).2.textIfFile callsPlace =
          .ok (some pruned) := by
  have htext := textIfFile_callsDisk twoCallsText (by decide +kernel)
  have hdisk := writable_callsDisk .replace twoCallsText
  have hopened : (Document.parse twoCallsText).Opened := by decide +kernel
  obtain ⟨saved, disk', pruned, hprune, hreads, hpruned, -⟩ :=
    prune_isPruned htext hdisk hopened ["users"]
  refine ⟨htext, hdisk, hopened, pruned, hpruned, ?_⟩
  rw [hprune]
  exact hreads

end DartScaffold.Aggregate
