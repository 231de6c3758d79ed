import DartScaffold.Dart.Literal
import DartScaffold.Proofs.Dart.FieldName
import DartScaffold.Proofs.Dart.Reference

/-!
The type names in a piece of code: the words that begin with a capital, but for what stands in
string literals. Code is put together from names, literals and fixed pieces between them, and what
it cites is what its pieces cite, wherever they meet at a character that belongs to no name.
-/

namespace DartScaffold.Dart

/-! ### Code without the texts of its literals -/

/-- Where a character of a piece of code stands. -/
inductive Spot where
  | code
  | literal
  /-- In a literal, after a backslash. -/
  | escaped
  deriving DecidableEq

def Spot.next : Spot → Char → Spot
  | code, c => if c = '\'' then literal else code
  | literal, c => if c = '\'' then code else if c = '\\' then escaped else literal
  | escaped, _ => literal

def Spot.shown : Spot → Char → Char
  | code, c => c
  | _, _ => '\''

def Spot.after (spot : Spot) (s : List Char) : Spot :=
  s.foldl Spot.next spot

/-- The code with quotes in the place of what its literals hold. -/
def mask : Spot → List Char → List Char
  | _, [] => []
  | spot, c :: s => spot.shown c :: mask (spot.next c) s

theorem Spot.after_cons (spot : Spot) (c : Char) (s : List Char) :
    spot.after (c :: s) = (spot.next c).after s := rfl

theorem Spot.after_append (spot : Spot) (s rest : List Char) :
    spot.after (s ++ rest) = (spot.after s).after rest :=
  List.foldl_append

theorem mask_append (spot : Spot) (s rest : List Char) :
    mask spot (s ++ rest) = mask spot s ++ mask (spot.after s) rest := by
  induction s generalizing spot with
  | nil => rfl
  | cons c s ih => rw [List.cons_append, mask, mask, ih, Spot.after_cons, List.cons_append]

/-- The code ends outside of all literals. -/
def Whole (code : String) : Prop :=
  Spot.code.after code.toList = .code

instance (code : String) : Decidable (Whole code) :=
  inferInstanceAs (Decidable (_ = _))

theorem Whole.append {code rest : String} (h : Whole code) (hrest : Whole rest) :
    Whole (code ++ rest) := by
  have hcode : Spot.code.after code.toList = .code := h
  rw [Whole, String.toList_append, Spot.after_append, hcode]
  exact hrest

/-- Code without quotes has no literals. -/
theorem mask_of_not_mem {s : List Char} (h : '\'' ∉ s) :
    mask .code s = s ∧ Spot.code.after s = .code := by
  induction s with
  | nil => exact ⟨rfl, rfl⟩
  | cons c s ih =>
      obtain ⟨hc, hs⟩ : ¬ '\'' = c ∧ '\'' ∉ s := by simpa using h
      have hnext : Spot.code.next c = .code := if_neg fun h => hc h.symm
      rw [mask, Spot.after_cons, hnext, (ih hs).1]
      exact ⟨rfl, (ih hs).2⟩

/-- An escaped text does not end its literal. -/
theorem mask_escaped (s : List Char) :
    (∀ c ∈ mask .literal (s.flatMap escapeChar), c = '\'') ∧
      Spot.literal.after (s.flatMap escapeChar) = .literal := by
  induction s with
  | nil => exact ⟨by simp [mask], rfl⟩
  | cons c s ih =>
      have hfirst : (∀ d ∈ mask .literal (escapeChar c), d = '\'') ∧
          Spot.literal.after (escapeChar c) = .literal := by
        rw [escapeChar]
        split
        · exact ⟨by simp [mask, Spot.shown, Spot.next], rfl⟩
        · rename_i hplain
          obtain ⟨hslash, hquote, -⟩ : c ≠ '\\' ∧ c ≠ '\'' ∧ c ≠ '$' := by simpa using hplain
          exact ⟨by simp [mask, Spot.shown], by simp [Spot.after, Spot.next, hslash, hquote]⟩
      rw [List.flatMap_cons, mask_append, Spot.after_append, hfirst.2]
      exact ⟨List.forall_mem_append.mpr ⟨hfirst.1, ih.1⟩, ih.2⟩

/-! ### Words -/

/-- The words of a text that a test picks. -/
def wordsThat (p : List Char → Bool) (s : List Char) : List String :=
  ((s.splitOnP fun c => !isNameChar c).filter p).map String.ofList

/-- The words in a piece of code, but for its literals. -/
def namesThat (p : List Char → Bool) (code : String) : List String :=
  wordsThat p (mask .code code.toList)

section Words

variable {p : List Char → Bool}

/-- Words end at a character that belongs to no name. -/
theorem wordsThat_append_cons {c : Char} (hc : isNameChar c = false) (s rest : List Char) :
    wordsThat p (s ++ c :: rest) = wordsThat p s ++ wordsThat p rest := by
  rw [wordsThat, List.splitOnP_append_cons s rest (by simp [hc]), List.filter_append,
    List.map_append]
  rfl

theorem wordsThat_of_forall {s : List Char} (h : ∀ c ∈ s, isNameChar c = true) :
    wordsThat p s = if p s then [String.ofList s] else [] := by
  rw [wordsThat, List.splitOnP_eq_singleton fun c hc => by simp [h c hc]]
  cases hs : p s <;> simp [hs]

theorem namesThat_of_forall {code : String} (h : ∀ c ∈ code.toList, isNameChar c = true) :
    Whole code ∧ namesThat p code = if p code.toList then [code] else [] := by
  have hquote : '\'' ∉ code.toList := fun hmem => absurd (h _ hmem) (by decide)
  obtain ⟨hmask, hwhole⟩ := mask_of_not_mem hquote
  exact ⟨hwhole, by rw [namesThat, hmask, wordsThat_of_forall h, String.ofList_toList]⟩

section Empty

variable (hp : p [] = false)

include hp

theorem wordsThat_nil : wordsThat p [] = [] := by
  simp [wordsThat, hp]

theorem wordsThat_cons {c : Char} (hc : isNameChar c = false) (s : List Char) :
    wordsThat p (c :: s) = wordsThat p s := by
  have hsplit := wordsThat_append_cons (p := p) hc [] s
  rwa [wordsThat_nil hp] at hsplit

theorem wordsThat_eq_nil {s : List Char} (h : ∀ c ∈ s, isNameChar c = false) :
    wordsThat p s = [] := by
  induction s with
  | nil => exact wordsThat_nil hp
  | cons c s ih =>
      obtain ⟨hc, hs⟩ := List.forall_mem_cons.mp h
      rw [wordsThat_cons hp hc, ih hs]

theorem namesThat_append {code rest : String} (h : Whole code)
    (hapart : isBefore code = true ∨ isAfter rest = true) :
    namesThat p (code ++ rest) = namesThat p code ++ namesThat p rest := by
  have hspot : Spot.code.after code.toList = .code := h
  rw [namesThat, String.toList_append, mask_append, hspot, namesThat, namesThat]
  rcases hapart with hlast | hfirst
  · rcases List.eq_nil_or_concat code.toList with hnil | ⟨front, c, hcode⟩
    · rw [hnil, mask, wordsThat_nil hp, List.nil_append, List.nil_append]
    · have hname : isNameChar c = false := by simpa [isBefore, hcode] using hlast
      -- in a literal the last character is shown as a quote, which is in no name either
      have hshown : isNameChar ((Spot.code.after front).shown c) = false := by
        cases Spot.code.after front with
        | code => exact hname
        | literal => rfl
        | escaped => rfl
      rw [hcode, List.concat_eq_append, mask_append]
      simp only [mask]
      rw [List.append_assoc, List.singleton_append, wordsThat_append_cons hshown,
        wordsThat_append_cons hshown, wordsThat_nil hp, List.append_nil]
  · cases hrest : rest.toList with
    | nil => simp [mask, wordsThat_nil hp]
    | cons c tail =>
        have hname : isNameChar c = false := by simpa [isAfter, hrest] using hfirst
        rw [mask]
        exact (wordsThat_append_cons hname _ _).trans (by rw [Spot.shown, wordsThat_cons hp hname])

/-- Whatever its text is, a literal has no words. -/
theorem namesThat_stringLiteral (text : String) :
    Whole (stringLiteral text) ∧ namesThat p (stringLiteral text) = [] := by
  obtain ⟨hshown, hspot⟩ := mask_escaped text.toList
  have hlist : (stringLiteral text).toList =
      ['\''] ++ (text.toList.flatMap escapeChar ++ ['\'']) := by
    simp [stringLiteral]
  have hopen : Spot.code.after ['\''] = .literal := rfl
  constructor
  · rw [Whole, hlist, Spot.after_append, hopen, Spot.after_append, hspot]
    rfl
  · rw [namesThat, hlist, mask_append, hopen, mask_append, hspot]
    refine wordsThat_eq_nil hp fun c hc => ?_
    obtain rfl : c = '\'' := by
      rcases List.mem_append.mp hc with hc | hc
      · simpa [mask, Spot.shown] using hc
      · rcases List.mem_append.mp hc with hc | hc
        · exact hshown c hc
        · simpa [mask, Spot.shown] using hc
    rfl

end Empty

end Words

/-- The words of a text that begin with a capital. -/
def typeWords (s : List Char) : List String :=
  ((s.splitOnP fun c => !isNameChar c).filter fun word => word.head?.any Char.isUpper).map
    String.ofList

/-- The type names in a piece of code. -/
def typeNames (code : String) : List String :=
  typeWords (mask .code code.toList)

theorem typeNames_eq (code : String) :
    typeNames code = namesThat (fun word => word.head?.any Char.isUpper) code := rfl

theorem typeNames_append {code rest : String} (h : Whole code)
    (hapart : isBefore code = true ∨ isAfter rest = true) :
    typeNames (code ++ rest) = typeNames code ++ typeNames rest :=
  namesThat_append rfl h hapart

/-! ### What code cites -/

/-- The types of the libraries that the text of a class uses. -/
def libraryTypes : List String :=
  ["Equatable", "Object", "List", "Map", "String", "DateTime", "File"]

/-- Beside types of the libraries, the code has the names of no types but `names`. -/
structure Within (code : String) (names : List String) : Prop where
  whole : Whole code
  only : ∀ name ∈ typeNames code, name ∈ libraryTypes ∨ name ∈ names

/-- The code has the names of these types, and of others from the libraries alone. -/
structure Cites (code : String) (names : List String) : Prop extends Within code names where
  all : ∀ name ∈ names, name ∈ typeNames code

instance (code : String) (names : List String) : Decidable (Cites code names) :=
  decidable_of_iff ((Whole code ∧ ∀ name ∈ typeNames code, name ∈ libraryTypes ∨ name ∈ names) ∧
      ∀ name ∈ names, name ∈ typeNames code)
    ⟨fun ⟨⟨whole, only⟩, all⟩ => ⟨⟨whole, only⟩, all⟩,
      fun ⟨⟨whole, only⟩, all⟩ => ⟨⟨whole, only⟩, all⟩⟩

theorem Within.mono {code : String} {names more : List String} (h : Within code names)
    (hsub : names ⊆ more) : Within code more :=
  ⟨h.whole, fun name hname => (h.only name hname).imp_right (@hsub name)⟩

theorem Within.append {code rest : String} {names : List String} (h : Within code names)
    (hrest : Within rest names) (hapart : isBefore code = true ∨ isAfter rest = true) :
    Within (code ++ rest) names where
  whole := h.whole.append hrest.whole
  only := by
    rw [typeNames_append h.whole hapart]
    exact List.forall_mem_append.mpr ⟨h.only, hrest.only⟩

theorem Cites.append {code rest : String} {names more : List String} (h : Cites code names)
    (hrest : Cites rest more) (hapart : isBefore code = true ∨ isAfter rest = true) :
    Cites (code ++ rest) (names ++ more) where
  toWithin := (h.toWithin.mono (List.subset_append_left names more)).append
    (hrest.toWithin.mono (List.subset_append_right names more)) hapart
  all := by
    rw [typeNames_append h.whole hapart]
    exact List.forall_mem_append.mpr ⟨fun name hname => List.mem_append_left _ (h.all name hname),
      fun name hname => List.mem_append_right _ (hrest.all name hname)⟩

/-- A piece of code with library types alone in it, after which a name can stand. -/
structure Lead (code : String) : Prop where
  cites : Cites code []
  last : isBefore code = true

/-- A piece of code with library types alone in it, before which a name can stand. -/
structure Trail (code : String) : Prop where
  cites : Cites code []
  first : isAfter code = true

/-- A piece of code that parts two names. -/
structure Gap (code : String) : Prop extends Trail code, Lead code where
  ne : code ≠ ""

instance (code : String) : Decidable (Lead code) :=
  decidable_of_iff (Cites code [] ∧ isBefore code = true)
    ⟨fun ⟨cites, last⟩ => ⟨cites, last⟩, fun ⟨cites, last⟩ => ⟨cites, last⟩⟩

instance (code : String) : Decidable (Trail code) :=
  decidable_of_iff (Cites code [] ∧ isAfter code = true)
    ⟨fun ⟨cites, first⟩ => ⟨cites, first⟩, fun ⟨cites, first⟩ => ⟨cites, first⟩⟩

instance (code : String) : Decidable (Gap code) :=
  decidable_of_iff (Trail code ∧ isBefore code = true ∧ code ≠ "")
    ⟨fun ⟨trail, last, ne⟩ => ⟨trail, last, ne⟩, fun gap => ⟨gap.toTrail, gap.last, gap.ne⟩⟩

/-- A name can stand after the gap, whatever is before it. -/
theorem Gap.isBefore_append {gap : String} (h : Gap gap) (front : String) :
    isBefore (front ++ gap) = true := by
  have hlast := h.last
  rw [isBefore] at hlast ⊢
  cases hgap : gap.toList.getLast? with
  | none => exact absurd (String.toList_eq_nil_iff.mp (List.getLast?_eq_none_iff.mp hgap)) h.ne
  | some c => simpa [String.toList_append, List.getLast?_append, hgap] using hlast

section Rules

variable {code gap rest : String} {names more : List String}

theorem Cites.before (h : Cites code names) (hgap : Lead gap) : Cites (gap ++ code) names :=
  hgap.cites.append h (.inl hgap.last)

theorem Cites.after (h : Cites code names) (hgap : Trail gap) : Cites (code ++ gap) names := by
  simpa using h.append hgap.cites (.inr hgap.first)

theorem Cites.around (h : Cites code names) (hgap : Gap gap) (hrest : Cites rest more) :
    Cites (code ++ gap ++ rest) (names ++ more) :=
  (h.after hgap.toTrail).append hrest (.inl (hgap.isBefore_append code))

theorem Cites.around_nil (h : Cites code names) (hgap : Gap gap) (hrest : Cites rest []) :
    Cites (code ++ gap ++ rest) names := by
  simpa using h.around hgap hrest

theorem Within.around (h : Within code names) (hgap : Gap gap) (hrest : Within rest names) :
    Within (code ++ gap ++ rest) names := by
  have hfixed : Within gap names := hgap.cites.toWithin.mono (List.nil_subset names)
  exact (h.append hfixed (.inr hgap.first)).append hrest (.inl (hgap.isBefore_append code))

theorem within_intercalate (hgap : Gap gap) {parts : List String}
    (h : ∀ part ∈ parts, Within part names) : Within (gap.intercalate parts) names := by
  induction parts with
  | nil => exact Within.mono ⟨rfl, List.forall_mem_nil _⟩ (List.nil_subset names)
  | cons part parts ih =>
      obtain ⟨hpart, hparts⟩ := List.forall_mem_cons.mp h
      by_cases hrest : parts = []
      · subst hrest
        simpa using hpart
      · rw [String.intercalate_cons_of_ne_nil hrest]
        exact hpart.around hgap (ih hparts)

/-! ### Names and literals -/

theorem cites_name (h : ∀ c ∈ code.toList, isNameChar c = true) :
    Cites code (if code.toList.head?.any Char.isUpper then [code] else []) := by
  obtain ⟨hwhole, hnames⟩ := namesThat_of_forall (p := fun word => word.head?.any Char.isUpper) h
  rw [← typeNames_eq] at hnames
  refine ⟨⟨hwhole, ?_⟩, ?_⟩ <;> rw [hnames]
  · exact fun name hname => .inr hname
  · exact fun name hname => hname

theorem cites_typeName (h : IsTypeName code) : Cites code [code] := by
  have hchars : ∀ c ∈ code.toList, isNameChar c = true := fun c hc => by
    simp [isNameChar, h.2 c hc]
  have hname := cites_name hchars
  rwa [if_pos h.1] at hname

/-- The names of fields are none of types. -/
theorem cites_fieldName (h : IsFieldName code) : Cites code [] := by
  have hchars : ∀ c ∈ code.toList, isNameChar c = true := fun c hc => by
    simp [isNameChar, h.2 c hc]
  have hname := cites_name hchars
  have hlower : code.toList.head?.any Char.isUpper = false := by
    obtain ⟨c, hc, hcase⟩ := (Option.any_eq_true _ _).mp h.1
    rw [hc]
    have hletter : c.isAlpha = true := (Bool.or_eq_true _ _).mpr (.inr hcase)
    obtain ⟨-, ⟨hupper, hlower⟩ | ⟨hupper, -⟩⟩ := Text.letter_cases hletter
    · exact absurd hcase (by simp [hlower])
    · exact hupper
  rwa [hlower] at hname

/-- Whatever its text is, a literal mentions nothing. -/
theorem cites_stringLiteral (text : String) : Cites (stringLiteral text) [] := by
  obtain ⟨hwhole, hnames⟩ :=
    namesThat_stringLiteral (p := fun word => word.head?.any Char.isUpper) rfl text
  rw [← typeNames_eq] at hnames
  exact ⟨⟨hwhole, by simp [hnames]⟩, by simp⟩

end Rules

end DartScaffold.Dart
