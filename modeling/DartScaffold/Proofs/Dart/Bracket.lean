import DartScaffold.Proofs.Dart.Field
import DartScaffold.Proofs.Dart.Mention

/-!
The brackets of a piece of code. A scan skips string literals and keeps the closing brackets that are
still awaited; it fails at a bracket of the wrong kind. Balanced code leaves what is awaited as it was, so
it can be put into other code at any place outside of literals. Hence only the fixed pieces of a text have
to be scanned: what is filled in between them is balanced by itself.
-/

namespace DartScaffold.Dart

/-- The bracket that closes what a character opens. -/
def closing? : Char → Option Char
  | '(' => some ')'
  | '[' => some ']'
  | '\x7b' => some '\x7d'
  | _ => none

def isClosing (c : Char) : Bool :=
  c = ')' || c = ']' || c = '\x7d'

/-- How far a scan has come. The bracket that is awaited first comes first. -/
structure Scan where
  spot : Spot
  awaited : List Char
  deriving DecidableEq

/-- What is awaited after one more character of code. -/
def await (awaited : List Char) (c : Char) : Option (List Char) :=
  match closing? c with
  | some close => some (close :: awaited)
  | none =>
    if isClosing c then
      if awaited.head? = some c then some awaited.tail else none
    else some awaited

def Scan.next (scan : Scan) (c : Char) : Option Scan :=
  match scan.spot with
  | .code => (await scan.awaited c).map fun awaited => ⟨Spot.code.next c, awaited⟩
  | spot => some ⟨spot.next c, scan.awaited⟩

def Scan.over (scan : Scan) : List Char → Option Scan
  | [] => some scan
  | c :: s => (scan.next c).bind fun scan => scan.over s

/-- From outside of literals to outside of literals, code that makes `after` of what was awaited. -/
def Turns (before : List Char) (code : String) (after : List Char) : Prop :=
  (Scan.mk .code before).over code.toList = some ⟨.code, after⟩

instance (before : List Char) (code : String) (after : List Char) :
    Decidable (Turns before code after) :=
  inferInstanceAs (Decidable (_ = _))

/-- All brackets are closed, each by its own kind, and so are all literals. -/
def Balanced (code : String) : Prop :=
  Turns [] code []

instance (code : String) : Decidable (Balanced code) :=
  inferInstanceAs (Decidable (Turns _ _ _))

example : Balanced "f(['(\\'', \x7b\x7d])" ∧ ¬ Balanced "f([)]" ∧ ¬ Balanced "f(')" := by decide

/-! ### Scans -/

theorem Scan.over_append (scan : Scan) (s rest : List Char) :
    scan.over (s ++ rest) = (scan.over s).bind fun scan => scan.over rest := by
  induction s generalizing scan with
  | nil => rfl
  | cons c s ih => simp only [List.cons_append, Scan.over, ih, Option.bind_assoc]

/-- What is awaited further out is left alone. -/
theorem await_append {awaited after : List Char} {c : Char} (h : await awaited c = some after)
    (outer : List Char) : await (awaited ++ outer) c = some (after ++ outer) := by
  rw [await.eq_def] at h ⊢
  split at h
  · obtain rfl := Option.some.inj h
    rfl
  · split at h
    · rename_i hclosing
      obtain ⟨hhead, htail⟩ := Option.ite_none_right_eq_some.mp h
      obtain ⟨rest, rfl⟩ := List.head?_eq_some_iff.mp hhead
      obtain rfl := Option.some.inj htail
      simp [hclosing]
    · rename_i hclosing
      obtain rfl := Option.some.inj h
      simp [hclosing]

theorem Scan.next_append {spot spot' : Spot} {awaited after : List Char} {c : Char}
    (h : (Scan.mk spot awaited).next c = some ⟨spot', after⟩) (outer : List Char) :
    (Scan.mk spot (awaited ++ outer)).next c = some ⟨spot', after ++ outer⟩ := by
  cases spot with
  | code =>
      obtain ⟨_, hawait, heq⟩ := Option.map_eq_some_iff.mp h
      obtain ⟨rfl, rfl⟩ := Scan.mk.inj heq
      rw [Scan.next, await_append hawait]
      rfl
  | literal | escaped =>
      obtain ⟨rfl, rfl⟩ := Scan.mk.inj (Option.some.inj h)
      rfl

theorem Scan.over_frame {s : List Char} {spot spot' : Spot} {awaited after : List Char}
    (h : (Scan.mk spot awaited).over s = some ⟨spot', after⟩) (outer : List Char) :
    (Scan.mk spot (awaited ++ outer)).over s = some ⟨spot', after ++ outer⟩ := by
  induction s generalizing spot awaited with
  | nil =>
      obtain ⟨rfl, rfl⟩ := Scan.mk.inj (Option.some.inj h)
      rfl
  | cons c s ih =>
      rw [Scan.over] at h
      obtain ⟨⟨middle, open'⟩, hnext, hrest⟩ := Option.bind_eq_some_iff.mp h
      rw [Scan.over, Scan.next_append hnext outer]
      exact ih hrest

/-! ### Code -/

section Turns

variable {before middle after : List Char} {code rest : String}

theorem Turns.append (h : Turns before code middle) (hrest : Turns middle rest after) :
    Turns before (code ++ rest) after := by
  have hcode : (Scan.mk .code before).over code.toList = some ⟨.code, middle⟩ := h
  rw [Turns, String.toList_append, Scan.over_append, hcode]
  exact hrest

theorem Turns.frame (h : Turns before code after) (outer : List Char) :
    Turns (before ++ outer) code (after ++ outer) :=
  Scan.over_frame h outer

theorem Balanced.turns (h : Balanced code) (awaited : List Char) : Turns awaited code awaited :=
  Turns.frame h awaited

theorem Balanced.append (h : Balanced code) (hrest : Balanced rest) : Balanced (code ++ rest) :=
  Turns.append h hrest

end Turns

/-! ### Pieces -/

/-- Pieces of code one after the other, or lines of it, none of which ends in a literal. -/
def runs? : List Char → List String → Option (List Char)
  | before, [] => some before
  | before, code :: rest =>
    match (Scan.mk .code before).over code.toList with
    | some ⟨.code, after⟩ => runs? after rest
    | _ => none

def Runs (before : List Char) (pieces : List String) (after : List Char) : Prop :=
  runs? before pieces = some after

instance (before : List Char) (pieces : List String) (after : List Char) :
    Decidable (Runs before pieces after) :=
  inferInstanceAs (Decidable (_ = _))

section Runs

variable {before middle after : List Char} {code : String} {pieces more : List String}

theorem runs_cons_iff :
    Runs before (code :: pieces) after ↔
      ∃ middle, Turns before code middle ∧ Runs middle pieces after := by
  rw [Runs, runs?]
  constructor
  · intro h
    split at h
    · rename_i middle hcode
      exact ⟨middle, hcode, h⟩
    · contradiction
  · rintro ⟨middle, hcode, hpieces⟩
    have hscan : (Scan.mk .code before).over code.toList = some ⟨.code, middle⟩ := hcode
    rw [hscan]
    exact hpieces

theorem Runs.cons (h : Turns before code middle) (hpieces : Runs middle pieces after) :
    Runs before (code :: pieces) after :=
  runs_cons_iff.mpr ⟨middle, h, hpieces⟩

theorem Turns.runs (h : Turns before code after) : Runs before [code] after :=
  .cons h rfl

theorem runs_append_iff :
    Runs before (pieces ++ more) after ↔
      ∃ middle, Runs before pieces middle ∧ Runs middle more after := by
  induction pieces generalizing before with
  | nil => exact ⟨fun h => ⟨before, rfl, h⟩, fun ⟨_, hnil, h⟩ => Option.some.inj hnil ▸ h⟩
  | cons code pieces ih =>
      simp only [List.cons_append, runs_cons_iff, ih]
      constructor
      · rintro ⟨first, hcode, middle, hpieces, hmore⟩
        exact ⟨middle, ⟨first, hcode, hpieces⟩, hmore⟩
      · rintro ⟨middle, ⟨first, hcode, hpieces⟩, hmore⟩
        exact ⟨first, hcode, middle, hpieces, hmore⟩

theorem Runs.append (h : Runs before pieces middle) (hmore : Runs middle more after) :
    Runs before (pieces ++ more) after :=
  runs_append_iff.mpr ⟨middle, h, hmore⟩

theorem Runs.frame (h : Runs before pieces after) (outer : List Char) :
    Runs (before ++ outer) pieces (after ++ outer) := by
  induction pieces generalizing before with
  | nil =>
      obtain rfl := Option.some.inj h
      rfl
  | cons code pieces ih =>
      obtain ⟨middle, hcode, hpieces⟩ := runs_cons_iff.mp h
      exact .cons (hcode.frame outer) (ih hpieces)

theorem runs_of_forall (h : ∀ code ∈ pieces, Balanced code) (awaited : List Char) :
    Runs awaited pieces awaited := by
  induction pieces with
  | nil => rfl
  | cons code pieces ih =>
      obtain ⟨hcode, hpieces⟩ := List.forall_mem_cons.mp h
      exact .cons (hcode.turns awaited) (ih hpieces)

end Runs

/-! ### Balanced code in other code -/

/-- The text consists of the pieces with balanced code filled in between them. -/
inductive Fills : List String → String → Prop where
  | fixed (piece : String) : Fills [piece] piece
  | hole {code : String} (hcode : Balanced code) : Fills [] code
  | append {frame rest : List String} {text more : String} (h : Fills frame text)
      (hrest : Fills rest more) : Fills (frame ++ rest) (text ++ more)

namespace Fills

variable {frame : List String} {text : String}

/-- What is filled in does not show outside. -/
theorem turns (h : Fills frame text) {before after : List Char} (hframe : Runs before frame after) :
    Turns before text after := by
  induction h generalizing before after with
  | fixed piece =>
      obtain ⟨middle, hpiece, hnil⟩ := runs_cons_iff.mp hframe
      obtain rfl : middle = after := Option.some.inj hnil
      exact hpiece
  | hole hcode =>
      obtain rfl : before = after := Option.some.inj hframe
      exact hcode.turns before
  | append _ _ ih ihrest =>
      obtain ⟨middle, hfront, hback⟩ := runs_append_iff.mp hframe
      exact (ih hfront).append (ihrest hback)

theorem balanced (h : Fills frame text) (hframe : Runs [] frame []) : Balanced text :=
  h.turns hframe

theorem code {code : String} (h : Fills frame text) (hcode : Balanced code) :
    Fills frame (text ++ code) := by
  simpa using h.append (.hole hcode)

theorem piece (h : Fills frame text) (piece : String) :
    Fills (frame ++ [piece]) (text ++ piece) :=
  h.append (.fixed piece)

end Fills

section Inside

variable {code more front gap back : String} {before after : List Char}

theorem Balanced.inside (h : Balanced code) (hframe : Runs before [front, back] after) :
    Turns before (front ++ code ++ back) after :=
  (((Fills.fixed front).code h).piece back).turns hframe

theorem Balanced.inside₂ (h : Balanced code) (hmore : Balanced more)
    (hframe : Runs before [front, gap, back] after) :
    Turns before (front ++ code ++ gap ++ more ++ back) after :=
  (((((Fills.fixed front).code h).piece gap).code hmore).piece back).turns hframe

end Inside

/-! ### Names and literals -/

/-- Code with neither brackets nor quotes. -/
theorem balanced_of_forall {code : String}
    (h : ∀ c ∈ code.toList, closing? c = none ∧ isClosing c = false ∧ c ≠ '\'') : Balanced code := by
  have hnext : ∀ c ∈ code.toList, (Scan.mk .code []).next c = some ⟨.code, []⟩ := by
    intro c hc
    obtain ⟨hopen, hclose, hquote⟩ := h c hc
    simp [Scan.next, await, hopen, hclose, Spot.next, hquote]
  rw [Balanced, Turns]
  clear h
  generalize code.toList = s at hnext ⊢
  induction s with
  | nil => rfl
  | cons c s ih =>
      obtain ⟨hc, hs⟩ := List.forall_mem_cons.mp hnext
      rw [Scan.over, hc]
      exact ih hs

theorem IsPlain.balanced {name : String} (h : IsPlain name) : Balanced name := by
  refine balanced_of_forall fun c hc => ?_
  have hne : ∀ other, other.isAlphanum = false → other ≠ '_' ∧ other ≠ '.' → c ≠ other := by
    rintro _ halpha hother rfl
    exact h.not_mem halpha hother hc
  refine ⟨?_, ?_, hne _ (by decide) (by decide)⟩
  · rw [closing?.eq_def]
    split
    · exact absurd rfl (hne '(' (by decide) (by decide))
    · exact absurd rfl (hne '[' (by decide) (by decide))
    · exact absurd rfl (hne '\x7b' (by decide) (by decide))
    · rfl
  · simp [isClosing, hne ')' (by decide) (by decide), hne ']' (by decide) (by decide),
      hne '\x7d' (by decide) (by decide)]

/-- In an escaped text no quote ends the literal, and brackets are passed over. -/
theorem Scan.over_escaped (awaited s : List Char) :
    (Scan.mk .literal awaited).over (s.flatMap escapeChar) = some ⟨.literal, awaited⟩ := by
  induction s with
  | nil => rfl
  | cons c s ih =>
      have hchar : (Scan.mk .literal awaited).over (escapeChar c) = some ⟨.literal, awaited⟩ := by
        rw [escapeChar]
        split
        · rfl
        · rename_i hplain
          obtain ⟨hslash, hquote, -⟩ : c ≠ '\\' ∧ c ≠ '\'' ∧ c ≠ '$' := by simpa using hplain
          simp [Scan.over, Scan.next, Spot.next, hslash, hquote]
      rw [List.flatMap_cons, Scan.over_append, hchar]
      exact ih

theorem balanced_stringLiteral (text : String) : Balanced (stringLiteral text) := by
  have hlist : (stringLiteral text).toList =
      ['\''] ++ (text.toList.flatMap escapeChar ++ ['\'']) := by
    simp [stringLiteral]
  have hopen : (Scan.mk .code []).over ['\''] = some ⟨.literal, []⟩ := rfl
  rw [Balanced, Turns, hlist, Scan.over_append, hopen, Option.bind_some, Scan.over_append,
    Scan.over_escaped]
  rfl

/-! ### Lines -/

section Lines

variable {before middle after : List Char} {lines : List String}

/-- Lines that open brackets, balanced lines, and lines that close the brackets again. -/
theorem Runs.around {opening closing : List String} (hopen : Runs before opening middle)
    (h : ∀ line ∈ lines, Balanced line) (hclose : Runs middle closing after) :
    Runs before (opening ++ lines ++ closing) after :=
  (hopen.append (runs_of_forall h middle)).append hclose

theorem Runs.joinLines (h : Runs before lines after) : Turns before (Text.joinLines lines) after := by
  induction lines generalizing before with
  | nil =>
      obtain rfl : before = after := Option.some.inj h
      rfl
  | cons line lines ih =>
      obtain ⟨middle, hline, hlines⟩ := runs_cons_iff.mp h
      by_cases hlast : lines = []
      · subst hlast
        obtain rfl : middle = after := Option.some.inj hlines
        simpa [Text.joinLines] using hline
      · have hnewline : Balanced "\n" := by decide
        rw [Text.joinLines, String.intercalate_cons_of_ne_nil hlast]
        exact (hline.append (hnewline.turns middle)).append (ih hlines)

theorem balanced_intercalate {sep : String} (hsep : Balanced sep) {parts : List String}
    (h : ∀ part ∈ parts, Balanced part) : Balanced (sep.intercalate parts) := by
  induction parts with
  | nil => rfl
  | cons part parts ih =>
      obtain ⟨hpart, hparts⟩ := List.forall_mem_cons.mp h
      by_cases hlast : parts = []
      · subst hlast
        simpa using hpart
      · rw [String.intercalate_cons_of_ne_nil hlast]
        exact (hpart.append hsep).append (ih hparts)

/-- Sections with blank lines between them. -/
theorem runs_sections {sections : List (List String)} (h : ∀ s ∈ sections, Runs before s before) :
    Runs before ([""].intercalate sections) before := by
  induction sections with
  | nil => rfl
  | cons s sections ih =>
      obtain ⟨hs, hsections⟩ := List.forall_mem_cons.mp h
      have hblank : Runs before [""] before := Turns.runs rfl
      cases sections with
      | nil => simpa using hs
      | cons next rest =>
          have hcons : [""].intercalate (s :: next :: rest) =
              s ++ [""] ++ [""].intercalate (next :: rest) := by
            simp [List.intercalate]
          rw [hcons]
          exact (hs.append hblank).append (ih hsections)

end Lines

end DartScaffold.Dart
