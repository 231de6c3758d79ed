import DartScaffold.Proofs.Aggregate.Edit

/-!
Where the blocks of a text are. Markers are described here by the texts they are written as. Main
statement: reading a file loses nothing, its blocks are what their markers say, and a line that
opens a block is left as text in one case only, where another opening line or the end of the text
comes before the line that would close it (`parse_maximal`).
-/

namespace DartScaffold.Aggregate

/-! ### Marker lines -/

/-- The line is `marker` with blanks around it. -/
def Bears (marker line : String) : Prop :=
  ∃ indent tail, IsIndent indent ∧ IsIndent tail ∧ line = indent ++ marker ++ tail

def Opens (key : BlockKey) (line : String) : Prop :=
  key.Valid ∧ Bears (beginMarker key.part key.api) line

def Closes (key : BlockKey) (line : String) : Prop :=
  key.Valid ∧ Bears (endMarker key.part key.api) line

theorem opens_iff {key : BlockKey} {line : String} :
    Opens key line ↔ ∃ indent, begin? line = some (indent, key) := by
  simp only [begin?_eq_some_iff]
  constructor
  · rintro ⟨hkey, indent, tail, hindent, htail, rfl⟩
    exact ⟨indent, hindent, hkey, tail.toList, htail, by simp [toList_beginMarker]⟩
  · rintro ⟨indent, hindent, hkey, tail, htail, hline⟩
    refine ⟨hkey, indent, String.ofList tail, hindent, by simpa [IsIndent] using htail, ?_⟩
    rw [← String.toList_inj, hline]
    simp [toList_beginMarker]

theorem closes_iff {key : BlockKey} {line : String} :
    Closes key line ↔ end? line = some key := by
  rw [end?_eq_some_iff]
  refine and_congr_right fun _ => ?_
  simp only [Bears, ← String.toList_inj, String.toList_append, toList_endMarker,
    List.append_assoc, List.cons_append]

theorem isSome_begin?_iff {line : String} : (begin? line).isSome ↔ ∃ key, Opens key line := by
  simp only [opens_iff, Option.isSome_iff_exists, Prod.exists]
  exact exists_comm

/-! ### Lines that close no block -/

/-- Another block is opened, or the text ends, before a line closes that of `key`. -/
def LeftOpen (key : BlockKey) (lines : List String) : Prop :=
  ∃ between rest, lines = between ++ rest ∧ (∀ line ∈ between, ¬ Closes key line) ∧
    ∀ line ∈ rest.head?, ∃ other, Opens other line

theorem leftOpen_nil (key : BlockKey) : LeftOpen key [] :=
  ⟨[], [], rfl, by simp, by simp⟩

theorem leftOpen_cons_iff {key : BlockKey} {line : String} {rest : List String} :
    LeftOpen key (line :: rest) ↔
      (∃ other, Opens other line) ∨ ¬ Closes key line ∧ LeftOpen key rest := by
  constructor
  · rintro ⟨between, back, heq, hbetween, hback⟩
    cases between with
    | nil =>
        obtain rfl : line :: rest = back := heq
        exact .inl (hback line rfl)
    | cons first between =>
        obtain ⟨rfl, rfl⟩ : line = first ∧ rest = between ++ back := by simpa using heq
        obtain ⟨hfirst, hbetween⟩ := List.forall_mem_cons.mp hbetween
        exact .inr ⟨hfirst, between, back, rfl, hbetween, hback⟩
  · rintro (hopens | ⟨hline, between, back, rfl, hbetween, hback⟩)
    · exact ⟨[], line :: rest, rfl, by simp, by simpa using hopens⟩
    · exact ⟨line :: between, back, rfl, List.forall_mem_cons.mpr ⟨hline, hbetween⟩, hback⟩

theorem closing?_eq_none_iff {key : BlockKey} {lines : List String} :
    closing? key lines = none ↔ LeftOpen key lines := by
  induction lines with
  | nil => simp [closing?, leftOpen_nil]
  | cons line rest ih =>
      rw [closing?, leftOpen_cons_iff, ← isSome_begin?_iff, closes_iff, ← ih]
      by_cases hend : end? line = some key
      · -- an end marker is no begin marker
        have hbegin : (begin? line).isSome = false := by
          cases hbegin : (begin? line).isSome with
          | false => rfl
          | true =>
              rw [end?_eq_none_of_begin? hbegin] at hend
              contradiction
        simp [hend, hbegin]
      · by_cases hbegin : (begin? line).isSome = true
        · simp [hend, hbegin]
        · simp [hend, hbegin]

/-! ### Where an opening line ends up -/

theorem ofLine_of_begin? {line : String} (h : (begin? line).isSome) :
    Node.ofLine line = .text line := by
  have hdark := firstDark_of_begin? h
  have himport : isImportLine line = false := by
    cases himport : isImportLine line with
    | false => rfl
    | true => exact absurd hdark (firstDark_of_isImportLine himport)
  rw [Node.ofLine, anchor?_eq_none_of_begin? h, himport]
  rfl

theorem line_eq_of_ofLine_eq_text {line other : String} (h : Node.ofLine line = .text other) :
    line = other := by
  have hlines := congrArg Node.lines h
  rw [Node.lines_ofLine] at hlines
  simpa [Node.lines] using hlines

theorem split_of_not_mem {α : Type} {whole back front rest : List α} {a : α} (h : a ∉ whole)
    (heq : whole ++ back = front ++ a :: rest) :
    ∃ middle, front = whole ++ middle ∧ back = middle ++ a :: rest := by
  rcases List.append_eq_append_iff.mp heq with hfront | ⟨more, rfl, hmore⟩
  · exact hfront
  · cases more with
    | nil => exact ⟨[], by simp, by simpa using hmore.symm⟩
    | cons first more =>
        obtain ⟨rfl, -⟩ := List.cons.inj hmore
        simp at h

namespace Document

/-- The node that an opening line belongs to starts with it: no block has such a line inside. -/
theorem Faithful.node_at {d : Document} (h : Faithful d) {front back : List String} {line : String}
    {key : BlockKey} (hlines : d.lines = front ++ line :: back) (hopens : Opens key line) :
    ∃ (before : Document) (node : Node) (after : Document), d = before ++ node :: after ∧
      before.lines = front ∧ (node = .text line ∨ ∃ body last, node = .block key line body last) := by
  obtain ⟨indent, hbegin⟩ := opens_iff.mp hopens
  have hsome : (begin? line).isSome := by simp [hbegin]
  induction h generalizing front with
  | nil => simp at hlines
  | @line first d hopen h ih =>
      rw [lines_cons, Node.lines_ofLine, List.singleton_append] at hlines
      cases front with
      | nil =>
          obtain ⟨rfl, -⟩ : first = line ∧ d.lines = back := by simpa using hlines
          exact ⟨[], _, d, rfl, rfl, .inl (ofLine_of_begin? hsome)⟩
      | cons next front =>
          obtain ⟨rfl, hrest⟩ : first = next ∧ d.lines = front ++ line :: back := by
            simpa using hlines
          obtain ⟨before, node, after, rfl, hbefore, hnode⟩ := ih hrest
          exact ⟨.ofLine first :: before, node, after, rfl, by simp [hbefore], hnode⟩
  | @block key' first last body d hblock h ih =>
      cases front with
      | nil =>
          obtain ⟨rfl, -⟩ : first = line ∧ body ++ [last] ++ d.lines = back := by
            simpa [Node.lines] using hlines
          obtain ⟨indent', hfirst⟩ := hblock.first
          obtain ⟨rfl, rfl⟩ : indent' = indent ∧ key' = key := by simpa [hbegin] using hfirst.symm
          exact ⟨[], _, d, rfl, rfl, .inr ⟨body, last, rfl⟩⟩
      | cons next front =>
          have hrest : (body ++ [last]) ++ d.lines = front ++ line :: back := by
            simpa [Node.lines] using (List.cons.inj (by simpa [Node.lines] using hlines)).2
          have hinside : line ∉ body ++ [last] := by
            intro hmem
            rcases List.mem_append.mp hmem with hmem | hmem
            · simp [(hblock.body line hmem).1] at hsome
            · obtain rfl := List.mem_singleton.mp hmem
              have hlast := hblock.last
              rw [end?_eq_none_of_begin? hsome] at hlast
              contradiction
          obtain ⟨middle, rfl, hmiddle⟩ := split_of_not_mem hinside hrest
          obtain ⟨before, node, after, rfl, rfl, hnode⟩ := ih hmiddle
          obtain rfl : first = next := by simpa [Node.lines] using (List.cons.inj hlines).1
          exact ⟨_ :: before, node, after, rfl, by simp [Node.lines], hnode⟩

theorem Faithful.leftOpen {before after : Document} {line : String} {key : BlockKey}
    (h : Faithful (before ++ .text line :: after)) (hopens : Opens key line) :
    LeftOpen key after.lines := by
  obtain ⟨indent, hbegin⟩ := opens_iff.mp hopens
  rw [← closing?_eq_none_iff]
  generalize hnode : Node.text line = node at h
  cases h.right with
  | line hopen =>
      obtain rfl := line_eq_of_ofLine_eq_text hnode.symm
      exact hopen indent key hbegin
  | block => cases hnode

theorem Faithful.not_leftOpen {before after : Document} {key : BlockKey} {first last : String}
    {body : List String} (h : Faithful (before ++ .block key first body last :: after)) :
    ¬ LeftOpen key (body ++ last :: after.lines) := by
  intro hopen
  have hnone := closing?_eq_none_iff.mpr hopen
  rw [closing?_append h.isBlock.body h.isBlock.last] at hnone
  contradiction

/-! ### Reading a whole file -/

/-- Reading loses nothing. Each block has the begin and the end marker of its own section and API
around lines that open no block and do not close this one. A line that opens a block is left as
text exactly where another opening line, or the end of the text, comes before the line that would
close it; anywhere else it is the first line of its block. -/
theorem parse_maximal (text : String) :
    (parse text).render = text ∧
      (∀ key first body last, Node.block key first body last ∈ parse text →
        Opens key first ∧ Closes key last ∧
          ∀ line ∈ body, (∀ other, ¬ Opens other line) ∧ ¬ Closes key line) ∧
      ∀ front line back key, Text.splitLines text = front ++ line :: back → Opens key line →
        ((∃ before after : Document,
            parse text = before ++ .text line :: after ∧ before.lines = front) ↔
          LeftOpen key back) ∧
        ((∃ (before : Document) (body : List String) (last : String) (after : Document),
            parse text = before ++ .block key line body last :: after ∧ before.lines = front) ↔
          ¬ LeftOpen key back) := by
  have hfaithful := (sound_parse text).faithful
  refine ⟨render_parse text, ?_, ?_⟩
  · intro key first body last hmem
    obtain ⟨before, after, hsplit⟩ := List.append_of_mem hmem
    rw [hsplit] at hfaithful
    have hblock := hfaithful.isBlock
    refine ⟨opens_iff.mpr hblock.first, closes_iff.mpr hblock.last, fun line hline => ?_⟩
    obtain ⟨hbegin, hend⟩ := hblock.body line hline
    refine ⟨fun other hopens => ?_, fun hcloses => hend (closes_iff.mp hcloses)⟩
    have hsome := isSome_begin?_iff.mpr ⟨other, hopens⟩
    simp [hbegin] at hsome
  · intro front line back key hsplit hopens
    have hlines : (parse text).lines = front ++ line :: back := (lines_parse text).trans hsplit
    obtain ⟨before, node, after, heq, hbefore, hnode⟩ := hfaithful.node_at hlines hopens
    have hleft : ∀ before after : Document, parse text = before ++ .text line :: after →
        before.lines = front → LeftOpen key back := by
      rintro before after heq rfl
      rw [heq] at hfaithful hlines
      obtain rfl : after.lines = back := by simpa [Node.lines] using hlines
      exact hfaithful.leftOpen hopens
    have hclosed : ∀ (before : Document) (body : List String) (last : String) (after : Document),
        parse text = before ++ .block key line body last :: after → before.lines = front →
          ¬ LeftOpen key back := by
      rintro before body last after heq rfl
      rw [heq] at hfaithful hlines
      obtain rfl : body ++ last :: after.lines = back := by simpa [Node.lines] using hlines
      exact hfaithful.not_leftOpen
    -- the line is the one or the other, and each of them tells whether it is left open
    rcases hnode with rfl | ⟨body, last, rfl⟩
    · have hopen := hleft before after heq hbefore
      refine ⟨⟨fun _ => hopen, fun _ => ⟨before, after, heq, hbefore⟩⟩, ?_, fun h => absurd hopen h⟩
      rintro ⟨before, body, last, after, heq, hbefore⟩
      exact hclosed before body last after heq hbefore
    · have hnot := hclosed before body last after heq hbefore
      refine ⟨⟨?_, fun h => absurd h hnot⟩, fun _ => hnot, fun _ =>
        ⟨before, body, last, after, heq, hbefore⟩⟩
      rintro ⟨before, after, heq, hbefore⟩
      exact hleft before after heq hbefore

end Document

end DartScaffold.Aggregate
