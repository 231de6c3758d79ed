import DartScaffold.Aggregate.Marker
import DartScaffold.Proofs.Text.Span
import Mathlib.Data.List.TakeDrop

/-!
Which lines are markers, and of what. A line is the begin (or end) marker of a block exactly when
it is an indent, the head of such markers, the section, a colon, the API and blanks; an anchor
likewise. The three heads exclude one another, so no line is a marker of two kinds.
-/

namespace DartScaffold.Aggregate

open Text (isBlank of_mem_takeWhile of_mem_head?_dropWhile takeWhile_append_stop
  dropWhile_append_stop drop_length_takeWhile)

/-- The name of a section as markers can carry it. -/
def IsPartName (name : String) : Prop :=
  name.toList ≠ [] ∧ ∀ c ∈ name.toList, isPartChar c = true

/-- The name of an API as markers can carry it. -/
def IsApiId (api : String) : Prop :=
  api.toList ≠ [] ∧ ∀ c ∈ api.toList, isBlank c = false

def IsIndent (indent : String) : Prop :=
  ∀ c ∈ indent.toList, isBlank c = true

instance (name : String) : Decidable (IsPartName name) :=
  decidable_of_iff (name.toList ≠ [] ∧ name.toList.all isPartChar = true) (by simp [IsPartName])

instance (api : String) : Decidable (IsApiId api) :=
  decidable_of_iff (api.toList ≠ [] ∧ api.toList.all (fun c => !isBlank c) = true)
    (by simp [IsApiId])

structure BlockKey.Valid (key : BlockKey) : Prop where
  part : IsPartName key.part
  api : IsApiId key.api

/-! ### Parts of a marker -/

theorem after?_eq_some_iff {head s rest : List Char} :
    after? head s = some rest ↔ s = head ++ rest := by
  fun_induction after? head s <;> simp_all [eq_comm]

theorem allBlank_iff {s : List Char} : allBlank s = true ↔ ∀ c ∈ s, isBlank c = true := by
  simp [allBlank]

theorem indentOf_eq_iff {s indent rest : List Char} :
    indentOf s = (indent, rest) ↔
      (∀ c ∈ indent, isBlank c = true) ∧ s = indent ++ rest ∧
        ∀ c ∈ rest.head?, isBlank c = false := by
  rw [indentOf, List.span_eq_takeWhile_dropWhile, Prod.mk.injEq]
  constructor
  · rintro ⟨rfl, rfl⟩
    exact ⟨fun _ => of_mem_takeWhile, by simp, fun _ => of_mem_head?_dropWhile⟩
  · rintro ⟨hindent, rfl, hstop⟩
    exact ⟨takeWhile_append_stop hindent hstop, dropWhile_append_stop hindent hstop⟩

theorem takePart?_eq_some_iff {s rest : List Char} {name : String} :
    takePart? s = some (name, rest) ↔
      IsPartName name ∧ s = name.toList ++ rest ∧ ∀ c ∈ rest.head?, isPartChar c = false := by
  constructor
  · intro h
    rw [takePart?] at h
    split at h
    · exact absurd h (by simp)
    · rename_i hne
      obtain ⟨rfl, rfl⟩ : String.ofList (s.takeWhile isPartChar) = name ∧
          s.dropWhile isPartChar = rest := by simpa using h
      refine ⟨⟨by simpa using hne, ?_⟩, by simp, fun _ => of_mem_head?_dropWhile⟩
      rw [String.toList_ofList]
      exact fun _ => of_mem_takeWhile
  · rintro ⟨⟨hne, hall⟩, rfl, hstop⟩
    rw [takePart?, takeWhile_append_stop hall hstop, dropWhile_append_stop hall hstop]
    split
    · rename_i hnil
      exact absurd hnil hne
    · simp

theorem lastWord?_eq_some_iff {s : List Char} {api : String} :
    lastWord? s = some api ↔
      IsApiId api ∧ ∃ tail, (∀ c ∈ tail, isBlank c = true) ∧ s = api.toList ++ tail := by
  constructor
  · intro h
    simp only [lastWord?, drop_length_takeWhile] at h
    split at h
    · exact absurd h (by simp)
    · rename_i hne
      split at h
      · rename_i hblank
        obtain rfl : String.ofList (s.takeWhile fun c => !isBlank c) = api := by simpa using h
        refine ⟨⟨by simpa using hne, ?_⟩, _, allBlank_iff.mp hblank, by simp⟩
        rw [String.toList_ofList]
        exact fun c hc => by simpa using of_mem_takeWhile hc
      · exact absurd h (by simp)
  · rintro ⟨⟨hne, hall⟩, tail, htail, rfl⟩
    have htake : ((api.toList ++ tail).takeWhile fun c => !isBlank c) = api.toList := by
      apply takeWhile_append_stop
      · simpa using hall
      · exact fun c hc => by simp [htail c (List.mem_of_mem_head? hc)]
    simp only [lastWord?, htake]
    simp [hne, allBlank_iff.mpr htail]

/-! ### Whole markers -/

/-- The heads of markers do not begin with a blank. -/
def StartsDark (head : List Char) : Prop :=
  ∃ c rest, head = c :: rest ∧ isBlank c = false

theorem beginHead_startsDark : StartsDark beginHead := ⟨'/', _, rfl, by decide⟩

theorem endHead_startsDark : StartsDark endHead := ⟨'/', _, rfl, by decide⟩

theorem anchorHead_startsDark : StartsDark anchorHead := ⟨'/', _, rfl, by decide⟩

theorem StartsDark.head?_append {head : List Char} (h : StartsDark head) (rest : List Char) :
    ∀ c ∈ (head ++ rest).head?, isBlank c = false := by
  obtain ⟨c, tail, rfl, hc⟩ := h
  simpa using hc

theorem blockMarker?_eq_some_iff {head : List Char} (hhead : StartsDark head)
    {line indent : String} {key : BlockKey} :
    blockMarker? head line = some (indent, key) ↔
      IsIndent indent ∧ key.Valid ∧ ∃ tail, (∀ c ∈ tail, isBlank c = true) ∧
        line.toList =
          indent.toList ++ (head ++ (key.part.toList ++ ':' :: (key.api.toList ++ tail))) := by
  constructor
  · intro h
    obtain ⟨⟨blanks, s⟩, hindent⟩ : ∃ split, indentOf line.toList = split := ⟨_, rfl⟩
    simp only [blockMarker?, hindent, Option.bind_eq_bind, Option.bind_eq_some_iff,
      Prod.exists] at h
    obtain ⟨s₁, h₁, part, s₂, h₂, s₃, h₃, api, h₄, h₅⟩ := h
    obtain ⟨rfl, rfl⟩ : String.ofList blanks = indent ∧ BlockKey.mk part api = key := by
      simpa using h₅
    obtain ⟨hblanks, hline, -⟩ := indentOf_eq_iff.mp hindent
    rw [after?_eq_some_iff] at h₁ h₃
    obtain ⟨hpart, rfl, -⟩ := takePart?_eq_some_iff.mp h₂
    obtain ⟨hapi, tail, htail, rfl⟩ := lastWord?_eq_some_iff.mp h₄
    refine ⟨by simpa [IsIndent] using hblanks, ⟨hpart, hapi⟩, tail, htail, ?_⟩
    simp [hline, h₁, h₃]
  · -- each reader stops where the next piece begins: at the head, the colon and the end
    rintro ⟨hindent, ⟨hpart, hapi⟩, tail, htail, hline⟩
    have h₀ := indentOf_eq_iff.mpr ⟨hindent, hline, hhead.head?_append _⟩
    have h₁ : takePart? (key.part.toList ++ ':' :: (key.api.toList ++ tail)) =
        some (key.part, ':' :: (key.api.toList ++ tail)) := by
      refine takePart?_eq_some_iff.mpr ⟨hpart, rfl, fun c hc => ?_⟩
      obtain rfl : ':' = c := by simpa using hc
      decide
    have h₂ : after? [':'] (':' :: (key.api.toList ++ tail)) = some (key.api.toList ++ tail) :=
      after?_eq_some_iff.mpr rfl
    have h₃ := lastWord?_eq_some_iff.mpr ⟨hapi, tail, htail, rfl⟩
    simp [blockMarker?, h₀, after?_eq_some_iff.mpr rfl, h₁, h₂, h₃]

theorem anchor?_eq_some_iff {line indent part : String} :
    anchor? line = some (indent, part) ↔
      IsIndent indent ∧ IsPartName part ∧ ∃ tail, (∀ c ∈ tail, isBlank c = true) ∧
        (∀ c ∈ tail.head?, isPartChar c = false) ∧
        line.toList = indent.toList ++ (anchorHead ++ (part.toList ++ tail)) := by
  constructor
  · intro h
    obtain ⟨⟨blanks, s⟩, hindent⟩ : ∃ split, indentOf line.toList = split := ⟨_, rfl⟩
    simp only [anchor?, hindent, Option.bind_eq_bind, Option.bind_eq_some_iff,
      Prod.exists] at h
    obtain ⟨s₁, h₁, name, tail, h₂, h₃⟩ := h
    split at h₃
    · rename_i htail
      obtain ⟨rfl, rfl⟩ : String.ofList blanks = indent ∧ name = part := by simpa using h₃
      obtain ⟨hblanks, hline, -⟩ := indentOf_eq_iff.mp hindent
      rw [after?_eq_some_iff] at h₁
      obtain ⟨hpart, rfl, hstop⟩ := takePart?_eq_some_iff.mp h₂
      refine ⟨by simpa [IsIndent] using hblanks, hpart, tail, allBlank_iff.mp htail, hstop, ?_⟩
      simp [hline, h₁]
    · exact absurd h₃ (by simp)
  · rintro ⟨hindent, hpart, tail, htail, hstop, hline⟩
    have h₀ := indentOf_eq_iff.mpr ⟨hindent, hline, anchorHead_startsDark.head?_append _⟩
    have h₁ := takePart?_eq_some_iff.mpr ⟨hpart, rfl, hstop⟩
    simp [anchor?, h₀, after?_eq_some_iff.mpr rfl, h₁, allBlank_iff.mpr htail]

theorem begin?_eq_some_iff {line indent : String} {key : BlockKey} :
    begin? line = some (indent, key) ↔
      IsIndent indent ∧ key.Valid ∧ ∃ tail, (∀ c ∈ tail, isBlank c = true) ∧
        line.toList = indent.toList ++
          (beginHead ++ (key.part.toList ++ ':' :: (key.api.toList ++ tail))) :=
  blockMarker?_eq_some_iff beginHead_startsDark

theorem end?_eq_some_iff {line : String} {key : BlockKey} :
    (end? line = some key) ↔
      key.Valid ∧ ∃ indent tail : String, IsIndent indent ∧ IsIndent tail ∧
        line.toList = indent.toList ++
          (endHead ++ (key.part.toList ++ ':' :: (key.api.toList ++ tail.toList))) := by
  simp only [end?, Option.map_eq_some_iff, Prod.exists, blockMarker?_eq_some_iff endHead_startsDark]
  constructor
  · rintro ⟨indent, key, ⟨hindent, hkey, tail, htail, hline⟩, rfl⟩
    exact ⟨hkey, indent, String.ofList tail, hindent, by simpa [IsIndent] using htail,
      by simpa using hline⟩
  · rintro ⟨hkey, indent, tail, hindent, htail, hline⟩
    exact ⟨indent, key, ⟨hindent, hkey, tail.toList, htail, hline⟩, rfl⟩

/-! ### Markers that are written -/

theorem toList_beginMarker (part api : String) :
    (beginMarker part api).toList = beginHead ++ (part.toList ++ ':' :: api.toList) := by
  simp [beginMarker, beginHead]

theorem toList_endMarker (part api : String) :
    (endMarker part api).toList = endHead ++ (part.toList ++ ':' :: api.toList) := by
  simp [endMarker, endHead]

theorem begin?_beginMarker {indent : String} {key : BlockKey} (hindent : IsIndent indent)
    (hkey : key.Valid) :
    begin? (indent ++ beginMarker key.part key.api) = some (indent, key) :=
  begin?_eq_some_iff.mpr ⟨hindent, hkey, [], by simp, by simp [toList_beginMarker]⟩

theorem end?_endMarker {indent : String} {key : BlockKey} (hindent : IsIndent indent)
    (hkey : key.Valid) : end? (indent ++ endMarker key.part key.api) = some key := by
  have htail : IsIndent "" := by simp [IsIndent]
  exact end?_eq_some_iff.mpr ⟨hkey, indent, "", hindent, htail, by simp [toList_endMarker]⟩

/-! ### No line is of two kinds -/

/-- The first character of a line that is no blank. -/
def firstDark (line : String) : Option Char :=
  (line.toList.dropWhile isBlank).head?

theorem firstDark_of_toList {line : String} {indent head rest : List Char}
    (hindent : ∀ c ∈ indent, isBlank c = true) (hhead : StartsDark head)
    (hline : line.toList = indent ++ (head ++ rest)) : firstDark line = head.head? := by
  rw [firstDark, hline, dropWhile_append_stop hindent (hhead.head?_append rest)]
  obtain ⟨c, tail, rfl, -⟩ := hhead
  rfl

theorem firstDark_of_begin? {line : String} (h : (begin? line).isSome) :
    firstDark line = some '/' := by
  obtain ⟨⟨indent, key⟩, h⟩ := Option.isSome_iff_exists.mp h
  obtain ⟨hindent, -, tail, -, hline⟩ := begin?_eq_some_iff.mp h
  exact firstDark_of_toList hindent beginHead_startsDark hline

theorem firstDark_of_end? {line : String} (h : (end? line).isSome) :
    firstDark line = some '/' := by
  obtain ⟨key, h⟩ := Option.isSome_iff_exists.mp h
  obtain ⟨-, indent, tail, hindent, -, hline⟩ := end?_eq_some_iff.mp h
  exact firstDark_of_toList hindent endHead_startsDark hline

theorem firstDark_of_anchor? {line : String} (h : (anchor? line).isSome) :
    firstDark line = some '/' := by
  obtain ⟨⟨indent, part⟩, h⟩ := Option.isSome_iff_exists.mp h
  obtain ⟨hindent, -, tail, -, -, hline⟩ := anchor?_eq_some_iff.mp h
  exact firstDark_of_toList hindent anchorHead_startsDark hline

/-- A line that does not begin with a slash is no marker. -/
theorem no_marker_of_firstDark {line : String} (h : firstDark line ≠ some '/') :
    begin? line = none ∧ end? line = none ∧ anchor? line = none := by
  refine ⟨?_, ?_, ?_⟩ <;> rw [← Option.not_isSome_iff_eq_none] <;> intro hsome
  · exact h (firstDark_of_begin? hsome)
  · exact h (firstDark_of_end? hsome)
  · exact h (firstDark_of_anchor? hsome)

theorem indent_unique {indent other rest more : List Char}
    (hindent : ∀ c ∈ indent, isBlank c = true) (hother : ∀ c ∈ other, isBlank c = true)
    (hrest : ∀ c ∈ rest.head?, isBlank c = false) (hmore : ∀ c ∈ more.head?, isBlank c = false)
    (h : indent ++ rest = other ++ more) : indent = other ∧ rest = more := by
  have hpair := (indentOf_eq_iff.mpr ⟨hindent, rfl, hrest⟩).symm.trans
    (indentOf_eq_iff.mpr ⟨hother, h, hmore⟩)
  exact Prod.mk.inj hpair

theorem append_ne_of_take_ne {head other rest more : List Char} (n : Nat)
    (hn : n ≤ head.length ∧ n ≤ other.length) (hne : head.take n ≠ other.take n) :
    head ++ rest ≠ other ++ more := by
  intro h
  apply hne
  have htake := congrArg (List.take n) h
  rwa [List.take_append_of_le_length hn.1, List.take_append_of_le_length hn.2] at htake

/-- A begin marker has no other head in the place of its own. -/
theorem toList_ne_of_begin? {line : String} (h : (begin? line).isSome) {indent head rest : List Char}
    (hindent : ∀ c ∈ indent, isBlank c = true) (hhead : StartsDark head) (hlength : 14 ≤ head.length)
    (hne : beginHead.take 14 ≠ head.take 14) : line.toList ≠ indent ++ (head ++ rest) := by
  intro hline
  obtain ⟨⟨blanks, key⟩, h⟩ := Option.isSome_iff_exists.mp h
  obtain ⟨hblanks, -, tail, -, hbegin⟩ := begin?_eq_some_iff.mp h
  have hrest := (indent_unique hblanks hindent (beginHead_startsDark.head?_append _)
    (hhead.head?_append _) (hbegin.symm.trans hline)).2
  exact append_ne_of_take_ne 14 ⟨by decide, hlength⟩ hne hrest

theorem end?_eq_none_of_begin? {line : String} (h : (begin? line).isSome) :
    (end? line) = none := by
  cases hend : end? line with
  | none => rfl
  | some key =>
      obtain ⟨-, indent, tail, hindent, -, hline⟩ := end?_eq_some_iff.mp hend
      exact absurd hline
        (toList_ne_of_begin? h hindent endHead_startsDark (by decide) (by decide))

theorem anchor?_eq_none_of_begin? {line : String} (h : (begin? line).isSome) :
    anchor? line = none := by
  cases hanchor : anchor? line with
  | none => rfl
  | some found =>
      obtain ⟨indent, part⟩ := found
      obtain ⟨hindent, -, tail, -, -, hline⟩ := anchor?_eq_some_iff.mp hanchor
      exact absurd hline
        (toList_ne_of_begin? h hindent anchorHead_startsDark (by decide) (by decide))

end DartScaffold.Aggregate
