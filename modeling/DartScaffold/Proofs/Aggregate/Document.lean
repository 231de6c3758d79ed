import DartScaffold.Aggregate.Document
import DartScaffold.Proofs.Aggregate.ImportLine
import DartScaffold.Proofs.Text.Lines

/-!
Reading and writing documents. A document is faithful when its own lines read back as it: every
block is one that reading would find, and every line that opens a block without being in one stays
unclosed by the lines after it. What is read is faithful, and a faithful document is read back.

An edit keeps this as long as what it puts in the place of a part of the document closes no block
from outside (`Faithful.append_congr`). Lines that are no markers and whole blocks are such.
-/

namespace DartScaffold.Aggregate

/-! ### Where a block closes -/

/-- No line opens a block or closes that of `key`. -/
def IsBody (key : BlockKey) (body : List String) : Prop :=
  ∀ line ∈ body, begin? line = none ∧ end? line ≠ some key

instance (key : BlockKey) (body : List String) : Decidable (IsBody key body) :=
  inferInstanceAs (Decidable (∀ line ∈ body, _))

theorem closing?_append {key : BlockKey} {body : List String} {last : String}
    (hbody : IsBody key body) (hlast : end? last = some key) (rest : List String) :
    closing? key (body ++ last :: rest) = some (body, last) := by
  induction body with
  | nil => simp [closing?, hlast]
  | cons line body ih =>
      obtain ⟨⟨hbegin, hend⟩, htail⟩ := List.forall_mem_cons.mp hbody
      rw [List.cons_append, closing?, if_neg hend, hbegin, ih htail]
      rfl

theorem of_closing? {key : BlockKey} {lines body : List String} {last : String}
    (h : closing? key lines = some (body, last)) :
    IsBody key body ∧ end? last = some key ∧ ∃ rest, lines = body ++ last :: rest := by
  induction lines generalizing body with
  | nil => simp [closing?] at h
  | cons line lines ih =>
      rw [closing?] at h
      split at h
      · rename_i hend
        obtain ⟨rfl, rfl⟩ : [] = body ∧ line = last := by simpa using h
        exact ⟨by simp [IsBody], hend, lines, rfl⟩
      · rename_i hend
        split at h
        · contradiction
        · rename_i hbegin
          obtain ⟨⟨tail, other⟩, htail, hpair⟩ := Option.map_eq_some_iff.mp h
          obtain ⟨rfl, rfl⟩ : line :: tail = body ∧ other = last := by simpa using hpair
          obtain ⟨hbody, hlast, rest, rfl⟩ := ih htail
          exact ⟨List.forall_mem_cons.mpr ⟨⟨by simpa using hbegin, hend⟩, hbody⟩, hlast, rest, rfl⟩

theorem closing?_eq_some_iff {key : BlockKey} {lines body : List String} {last : String} :
    closing? key lines = some (body, last) ↔
      IsBody key body ∧ end? last = some key ∧ ∃ rest, lines = body ++ last :: rest := by
  constructor
  · exact of_closing?
  · rintro ⟨hbody, hlast, rest, rfl⟩
    exact closing?_append hbody hlast rest

/-- A begin marker ends the search for the end of a block. -/
theorem closing?_cons_of_begin? {line : String} (h : (begin? line).isSome) (key : BlockKey)
    (rest : List String) : closing? key (line :: rest) = none := by
  simp [closing?, h, end?_eq_none_of_begin? h]

/-- What follows a stretch of lines matters to the search only if it closes the block itself. -/
theorem closing?_append_congr {key : BlockKey} {old new : List String}
    (h : closing? key old = none → closing? key new = none) (lines : List String)
    (hold : closing? key (lines ++ old) = none) : closing? key (lines ++ new) = none := by
  induction lines with
  | nil => exact h hold
  | cons line lines ih =>
      rw [List.cons_append, closing?] at hold ⊢
      split
      · rename_i hend
        simp [hend] at hold
      · rename_i hend
        rw [if_neg hend] at hold
        split
        · rfl
        · rename_i hbegin
          rw [if_neg hbegin, Option.map_eq_none_iff] at hold
          rw [Option.map_eq_none_iff]
          exact ih hold

/-! ### Blocks and lines -/

structure IsBlock (key : BlockKey) (first : String) (body : List String) (last : String) :
    Prop where
  first : ∃ indent, begin? first = some (indent, key)
  body : IsBody key body
  last : end? last = some key

theorem blockAt?_eq_some_iff {line : String} {rest : List String} {node : Node} :
    blockAt? line rest = some node ↔
      ∃ key body last more, IsBlock key line body last ∧ rest = body ++ last :: more ∧
        node = .block key line body last := by
  rw [blockAt?]
  cases hbegin : begin? line with
  | none =>
      refine ⟨by simp, ?_⟩
      rintro ⟨key, body, last, more, ⟨⟨indent, hfirst⟩, -, -⟩, -⟩
      simp [hbegin] at hfirst
  | some found =>
      obtain ⟨indent, key⟩ := found
      simp only [Option.map_eq_some_iff, Prod.exists, closing?_eq_some_iff]
      constructor
      · rintro ⟨body, last, ⟨hbody, hlast, more, rfl⟩, rfl⟩
        exact ⟨key, body, last, more, ⟨⟨indent, hbegin⟩, hbody, hlast⟩, rfl, rfl⟩
      · rintro ⟨key', body, last, more, ⟨⟨indent', hfirst⟩, hbody, hlast⟩, rfl, rfl⟩
        obtain ⟨rfl, rfl⟩ : indent = indent' ∧ key = key' := by simpa [hbegin] using hfirst
        exact ⟨body, last, ⟨hbody, hlast, more, rfl⟩, rfl⟩

theorem blockAt?_eq_none_iff {line : String} {rest : List String} :
    blockAt? line rest = none ↔
      ∀ indent key, begin? line = some (indent, key) → closing? key rest = none := by
  rw [blockAt?]
  cases hbegin : begin? line with
  | none => simp
  | some found =>
      obtain ⟨indent, key⟩ := found
      simp

@[simp] theorem Node.lines_ofLine (line : String) : (Node.ofLine line).lines = [line] := by
  rw [Node.ofLine]
  split
  · rfl
  · split <;> rfl

namespace Document

def lines (d : Document) : List String :=
  d.flatMap Node.lines

@[simp] theorem lines_nil : lines [] = [] := rfl

@[simp] theorem lines_cons (node : Node) (d : Document) :
    lines (node :: d) = node.lines ++ lines d := rfl

@[simp] theorem lines_append (d e : Document) : lines (d ++ e) = lines d ++ lines e :=
  List.flatMap_append

theorem render_eq (d : Document) : d.render = Text.joinLines d.lines := rfl

/-! ### Faithful documents -/

/-- Reads back as it is. -/
inductive Faithful : Document → Prop where
  | nil : Faithful []
  | line {line : String} {d : Document}
      (hopen : ∀ indent key, begin? line = some (indent, key) → closing? key d.lines = none)
      (h : Faithful d) : Faithful (.ofLine line :: d)
  | block {key : BlockKey} {first last : String} {body : List String} {d : Document}
      (hblock : IsBlock key first body last) (h : Faithful d) :
      Faithful (.block key first body last :: d)

theorem Faithful.tail {node : Node} {d : Document} (h : Faithful (node :: d)) : Faithful d := by
  cases h <;> assumption

theorem Faithful.right {d e : Document} (h : Faithful (d ++ e)) : Faithful e := by
  induction d with
  | nil => exact h
  | cons node d ih => exact ih h.tail

theorem ofLines_eq_drop (skip : Nat) (lines : List String) :
    ofLines skip lines = ofLines 0 (lines.drop skip) := by
  induction lines generalizing skip with
  | nil => simp [ofLines]
  | cons line lines ih =>
      cases skip with
      | zero => rfl
      | succ skip => rw [ofLines, List.drop_succ_cons, ih]

theorem faithful_ofLines (skip : Nat) (lines : List String) :
    Faithful (ofLines skip lines) ∧ (ofLines skip lines).lines = lines.drop skip := by
  fun_induction ofLines skip lines with
  | case1 => exact ⟨.nil, by simp⟩
  | case2 skip line rest ih => simpa using ih
  | case3 line rest node hblock ih =>
      obtain ⟨key, body, last, more, hwf, rfl, rfl⟩ := blockAt?_eq_some_iff.mp hblock
      refine ⟨.block hwf ih.1, ?_⟩
      rw [lines_cons, ih.2]
      simp [Node.lines]
  | case4 line rest hblock ih =>
      refine ⟨.line ?_ ih.1, by simp [ih.2]⟩
      rw [ih.2]
      exact blockAt?_eq_none_iff.mp hblock

theorem Faithful.ofLines_lines {d : Document} (h : Faithful d) : ofLines 0 d.lines = d := by
  induction h with
  | nil => rfl
  | @line line d hopen h ih =>
      rw [lines_cons, Node.lines_ofLine, List.singleton_append, ofLines,
        blockAt?_eq_none_iff.mpr hopen]
      simp only [ih]
  | @block key first last body d hblock h ih =>
      have hfound : blockAt? first (body ++ last :: d.lines) =
          some (.block key first body last) :=
        blockAt?_eq_some_iff.mpr ⟨key, body, last, d.lines, hblock, rfl, rfl⟩
      have hlines : lines (.block key first body last :: d) =
          first :: (body ++ last :: d.lines) := by simp [Node.lines]
      rw [hlines, ofLines, hfound]
      simp only [Node.lines]
      rw [ofLines_eq_drop]
      simp [ih]

def Lacks (c : Char) (d : Document) : Prop :=
  ∀ line ∈ d.lines, c ∉ line.toList

@[simp] theorem lacks_cons {c : Char} {node : Node} {d : Document} :
    Lacks c (node :: d) ↔ (∀ line ∈ node.lines, c ∉ line.toList) ∧ Lacks c d := by
  simp only [Lacks, lines_cons, List.forall_mem_append]

@[simp] theorem lacks_append {c : Char} {d e : Document} :
    Lacks c (d ++ e) ↔ Lacks c d ∧ Lacks c e := by
  simp only [Lacks, lines_append, List.forall_mem_append]

/-- A document that a text can have, and that this text gives back. -/
structure Sound (d : Document) : Prop where
  faithful : d.Faithful
  newlines : d.Lacks '\n'
  nonempty : d ≠ []

theorem Faithful.lines_ne_nil {d : Document} (hne : d ≠ []) (h : Faithful d) : d.lines ≠ [] := by
  cases h with
  | nil => contradiction
  | line => simp
  | block => simp [Node.lines]

theorem parse_render {d : Document} (h : d.Sound) : parse d.render = d := by
  rw [parse, render_eq, Text.splitLines_joinLines (h.faithful.lines_ne_nil h.nonempty) h.newlines,
    h.faithful.ofLines_lines]

theorem lines_parse (text : String) : (parse text).lines = Text.splitLines text :=
  (faithful_ofLines 0 (Text.splitLines text)).2

@[simp] theorem render_parse (text : String) : (parse text).render = text := by
  rw [render_eq, lines_parse, Text.joinLines_splitLines]

theorem sound_parse (text : String) : (parse text).Sound where
  faithful := (faithful_ofLines 0 (Text.splitLines text)).1
  newlines := by
    rw [Lacks, lines_parse]
    exact fun _ => Text.newline_not_mem_of_mem_splitLines
  nonempty := by
    intro h
    have hlines := lines_parse text
    rw [h] at hlines
    exact Text.splitLines_ne_nil text hlines.symm

theorem lacks_parse {c : Char} {text : String} (h : c ∉ text.toList) : (parse text).Lacks c := by
  rw [Lacks, lines_parse]
  exact fun _ hline hc => h (Text.mem_of_mem_splitLines hline hc)

theorem not_mem_render {c : Char} (hc : c ≠ '\n') {d : Document} (h : d.Lacks c) :
    c ∉ d.render.toList := by
  intro hmem
  obtain ⟨line, hline, hin⟩ := Text.mem_joinLines hc hmem
  exact h line hline hin

/-! ### Exchanging the end of a document -/

theorem Faithful.append_congr {pre old new : Document} (h : Faithful (pre ++ old))
    (hnew : Faithful new)
    (hclosing : ∀ key, closing? key old.lines = none → closing? key new.lines = none) :
    Faithful (pre ++ new) := by
  induction pre with
  | nil => exact hnew
  | cons node pre ih =>
      rw [List.cons_append] at h ⊢
      cases h with
      | line hopen h =>
          -- a stray begin marker is what might find its end in the new part
          refine .line (fun indent key hbegin => ?_) (ih h)
          have hold := hopen indent key hbegin
          rw [lines_append] at hold ⊢
          exact closing?_append_congr (hclosing key) _ hold
      | block hblock h => exact .block hblock (ih h)

end Document

/-- Put anywhere between the nodes of a document, it neither opens nor closes the block of
another. -/
inductive Node.Harmless : Node → Prop where
  | line {line : String} (hbegin : begin? line = none) (hend : end? line = none) :
      Harmless (.ofLine line)
  | block {key : BlockKey} {first last : String} {body : List String}
      (hblock : IsBlock key first body last) : Harmless (.block key first body last)

namespace Document

theorem Faithful.cons_harmless {node : Node} {d : Document} (hnode : node.Harmless)
    (h : Faithful d) : Faithful (node :: d) := by
  cases hnode with
  | line hbegin => exact .line (by simp [hbegin]) h
  | block hblock => exact .block hblock h

theorem closing?_cons_harmless {node : Node} {d : Document} {key : BlockKey}
    (hnode : node.Harmless) (h : closing? key d.lines = none) :
    closing? key (lines (node :: d)) = none := by
  cases hnode with
  | line hbegin hend => simp [closing?, hbegin, hend, h]
  | block hblock =>
      obtain ⟨indent, hfirst⟩ := hblock.first
      exact closing?_cons_of_begin? (by simp [hfirst]) _ _

theorem Faithful.append_harmless {added d : Document} (hadded : ∀ node ∈ added, node.Harmless)
    (h : Faithful d) : Faithful (added ++ d) := by
  induction added with
  | nil => exact h
  | cons node added ih =>
      have hrest := ih fun n hn => hadded n (List.mem_cons_of_mem _ hn)
      exact hrest.cons_harmless (hadded node List.mem_cons_self)

theorem closing?_append_harmless {added d : Document} {key : BlockKey}
    (hadded : ∀ node ∈ added, node.Harmless) (h : closing? key d.lines = none) :
    closing? key (lines (added ++ d)) = none := by
  induction added with
  | nil => exact h
  | cons node added ih =>
      exact closing?_cons_harmless (hadded node List.mem_cons_self)
        (ih fun n hn => hadded n (List.mem_cons_of_mem _ hn))

/-- Harmless nodes can be put in anywhere. -/
theorem Faithful.insert {pre post : Document} (h : Faithful (pre ++ post)) (added : Document)
    (hadded : ∀ node ∈ added, node.Harmless) : Faithful (pre ++ (added ++ post)) :=
  h.append_congr (h.right.append_harmless hadded) fun _ => closing?_append_harmless hadded

/-- A block can be put in the place of any node. -/
theorem Faithful.replace {pre post : Document} {old : Node} {key : BlockKey}
    {first last : String} {body : List String} (h : Faithful (pre ++ old :: post))
    (hblock : IsBlock key first body last) :
    Faithful (pre ++ .block key first body last :: post) := by
  -- every search that comes from before ends at the begin marker of the new block
  refine h.append_congr (.block hblock h.right.tail) fun other _ => ?_
  obtain ⟨indent, hfirst⟩ := hblock.first
  exact closing?_cons_of_begin? (by simp [hfirst]) _ _

end Document

end DartScaffold.Aggregate
