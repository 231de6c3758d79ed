import DartScaffold.Proofs.Dart.Expression
import DartScaffold.Proofs.Text.Spelling

/-!
Literals of JSON values decode back. The reader knows null, truth values, integers, strings, lists and
maps, and takes the maps with or without their type arguments, but never both ways. A literal says where
it ends, so the value and the text after it are found again, whatever the strings in the value hold. Only
an integer needs a word about what follows it, since digits would be read on.
-/

namespace DartScaffold

namespace Json

mutual

/-- All numbers in the value are integers. -/
def FloatFree : Json → Prop
  | .float _ => False
  | .arr items => ItemsFloatFree items
  | .obj entries => EntriesFloatFree entries
  | _ => True

def ItemsFloatFree : List Json → Prop
  | [] => True
  | item :: rest => item.FloatFree ∧ ItemsFloatFree rest

def EntriesFloatFree : List (String × Json) → Prop
  | [] => True
  | (_, value) :: rest => value.FloatFree ∧ EntriesFloatFree rest

end

end Json

namespace Dart

open Aggregate (after?)

/-! ### The reader -/

def decodeNat (s : List Char) : Option (Nat × List Char) :=
  let digits := s.takeWhile Char.isDigit
  if digits.isEmpty then none else some (Nat.ofDigitChars 10 digits 0, s.dropWhile Char.isDigit)

def decodeInt : List Char → Option (Int × List Char)
  | '-' :: s => (decodeNat s).map fun (n, s) => (-(n : Int), s)
  | s => (decodeNat s).map fun (n, s) => ((n : Int), s)

def constants : List (String × Json) :=
  [("null", .null), ("true", .bool true), ("false", .bool false)]

def decodeConstant (s : List Char) : Option (Json × List Char) :=
  constants.findSome? fun (word, value) => (after? word.toList s).map (value, ·)

/-- Each value inside another takes one unit of fuel. -/
def decodeValue (style : MapStyle) : Nat → List Char → Option (Json × List Char)
  | 0, _ => none
  | fuel + 1, s =>
    if s.head? = some '\'' then (decodeString s).map fun (text, s) => (.str text, s)
    else if s.head? = some '[' then
      (readItems ']' (decodeValue style fuel) fuel s.tail).map fun (items, s) => (.arr items, s)
    else
      match after? (style.head ++ "\x7b").toList s with
      | some s =>
        (readItems '\x7d' (readLabelled decodeString (decodeValue style fuel)) fuel s).map
          fun (entries, s) => (.obj entries, s)
      | none => (decodeConstant s).or ((decodeInt s).map fun (i, s) => (.int i, s))

/-- The value at the start of a text, and the text after it. -/
def decode (style : MapStyle) (s : List Char) : Option (Json × List Char) :=
  decodeValue style (s.length + 1) s

/-! ### Strings -/

/-- A dollar sign without a backslash before it is an error wherever it stands in a string. -/
theorem decodeString_dollar (text : String) (rest : List Char) :
    decodeString ('\'' :: (text.toList.flatMap escapeChar ++ '$' :: rest)) = none := by
  rw [decodeString, decodeText_append]
  rfl

/-! ### Integers -/

/-- A text that goes on with no digit. -/
def Undigited (s : List Char) : Prop :=
  ∀ c ∈ s.head?, c.isDigit = false

theorem Ended.undigited {s : List Char} (h : Ended s) : Undigited s := by
  intro c hc
  by_contra hdigit
  have hpart := isWordPart_of_isDigit (Bool.of_not_eq_false hdigit)
  exact Bool.noConfusion (hpart.symm.trans (h c hc).1)

theorem toList_toString_negSucc (n : Nat) :
    (toString (Int.negSucc n)).toList = '-' :: (toString (n + 1)).toList := by
  have htext : toString (Int.negSucc n) = "-" ++ toString (n + 1) := rfl
  rw [htext, String.toList_append]
  rfl

theorem exists_digit_toString (n : Nat) :
    ∃ c tail, (toString n).toList = c :: tail ∧ c.isDigit = true := by
  obtain ⟨c, tail, hcons⟩ := List.exists_cons_of_ne_nil (Text.toList_toString_ne_nil n)
  exact ⟨c, tail, hcons, Text.isDigit_of_mem_toString (hcons ▸ List.mem_cons_self)⟩

/-- An integer begins with a sign or a digit. -/
theorem exists_head_toString (i : Int) :
    ∃ c tail, (toString i).toList = c :: tail ∧ (c = '-' ∨ c.isDigit = true) := by
  cases i with
  | ofNat n =>
      obtain ⟨c, tail, hcons, hdigit⟩ := exists_digit_toString n
      exact ⟨c, tail, hcons, .inr hdigit⟩
  | negSucc n => exact ⟨'-', _, toList_toString_negSucc n, .inl rfl⟩

theorem decodeNat_append (n : Nat) {rest : List Char} (hrest : Undigited rest) :
    decodeNat ((toString n).toList ++ rest) = some (n, rest) := by
  have hdigits : ∀ c ∈ (toString n).toList, c.isDigit = true := fun _ =>
    Text.isDigit_of_mem_toString
  have hvalue : Nat.ofDigitChars 10 (toString n).toList 0 = n := by
    rw [Nat.toString_eq_repr, Nat.toList_repr]
    exact Nat.ofDigitChars_toDigits (by decide) (by decide)
  rw [decodeNat, Text.takeWhile_append_stop hdigits hrest, Text.dropWhile_append_stop hdigits hrest,
    hvalue, if_neg (mt List.isEmpty_iff.mp (Text.toList_toString_ne_nil n))]

theorem decodeInt_append (i : Int) {rest : List Char} (hrest : Undigited rest) :
    decodeInt ((toString i).toList ++ rest) = some (i, rest) := by
  cases i with
  | ofNat n =>
      have hread := decodeNat_append n hrest
      have htext : toString (Int.ofNat n) = toString n := rfl
      rw [htext, decodeInt.eq_def]
      split
      · rename_i s hs
        -- no natural number begins with a sign
        obtain ⟨c, tail, hcons, hdigit⟩ := exists_digit_toString n
        rw [hcons, List.cons_append] at hs
        obtain ⟨rfl, -⟩ := List.cons.inj hs
        contradiction
      · rw [hread]
        rfl
  | negSucc n =>
      have hread := decodeNat_append (n + 1) hrest
      rw [toList_toString_negSucc, List.cons_append, decodeInt, hread]
      rfl

/-! ### Values -/

/-- The text decodes to this value, whatever follows it but a digit. -/
def Denotes (style : MapStyle) (text : String) (value : Json) : Prop :=
  ∀ fuel rest, text.length < fuel → Undigited rest →
    decodeValue style fuel (text.toList ++ rest) = some (value, rest)

section Values

variable {style : MapStyle}

theorem Denotes.readBy {text : String} {value : Json} (h : Denotes style text value) {fuel : Nat}
    (hfuel : text.length < fuel) : ReadBy (decodeValue style fuel) text value :=
  fun rest hrest => h fuel rest hfuel hrest.undigited

theorem denotes_string (text : String) : Denotes style (stringLiteral text) (.str text) := by
  intro fuel rest hfuel _
  obtain ⟨fuel, rfl⟩ : ∃ n, fuel = n + 1 := ⟨fuel - 1, by omega⟩
  have hread := decodeString_stringLiteral text rest
  have hhead : ((stringLiteral text).toList ++ rest).head? = some '\'' := by
    simp [stringLiteral]
  rw [decodeValue, if_pos hhead, hread]
  rfl

/-- What begins with a letter, a digit or a sign is a constant or an integer. -/
theorem decodeValue_word {s : List Char} {c : Char} (hhead : s.head? = some c)
    (hc : isWordPart c = true) (fuel : Nat) : decodeValue style (fuel + 1) s =
      (decodeConstant s).or ((decodeInt s).map fun (i, s) => (.int i, s)) := by
  have hne : ∀ other, isWordPart other = false → s.head? ≠ some other := by
    intro other hother hsame
    obtain rfl : c = other := Option.some.inj (hhead.symm.trans hsame)
    exact Bool.noConfusion (hother.symm.trans hc)
  have hmap : after? (style.head ++ "\x7b").toList s = none := by
    cases hafter : after? (style.head ++ "\x7b").toList s with
    | none => rfl
    | some more =>
        obtain rfl := Aggregate.after?_eq_some_iff.mp hafter
        cases style with
        | plain => exact absurd rfl (hne '\x7b' (by decide))
        | typed => exact absurd rfl (hne '<' (by decide))
  rw [decodeValue, if_neg (hne '\'' (by decide)), if_neg (hne '[' (by decide)), hmap]

theorem denotes_constant {word : String} {value : Json} (h : (word, value) ∈ constants) :
    Denotes style word value := by
  intro fuel rest hfuel _
  obtain ⟨fuel, rfl⟩ : ∃ n, fuel = n + 1 := ⟨fuel - 1, by omega⟩
  simp only [constants, List.mem_cons, Prod.mk.injEq, List.not_mem_nil, or_false] at h
  rcases h with ⟨rfl, rfl⟩ | ⟨rfl, rfl⟩ | ⟨rfl, rfl⟩ <;>
    rw [decodeValue_word rfl (by decide)] <;> rfl

theorem decodeConstant_eq_none {s : List Char} {c : Char} (hhead : s.head? = some c)
    (hc : c.isAlpha = false) : decodeConstant s = none := by
  obtain ⟨tail, rfl⟩ := List.head?_eq_some_iff.mp hhead
  rw [decodeConstant, List.findSome?_eq_none_iff]
  rintro ⟨word, value⟩ h
  rw [Option.map_eq_none_iff, Option.eq_none_iff_forall_ne_some]
  intro more hafter
  have hword := Aggregate.after?_eq_some_iff.mp hafter
  simp only [constants, List.mem_cons, Prod.mk.injEq, List.not_mem_nil, or_false] at h
  rcases h with ⟨rfl, rfl⟩ | ⟨rfl, rfl⟩ | ⟨rfl, rfl⟩ <;>
    · obtain ⟨rfl, -⟩ := List.cons.inj hword
      exact absurd hc (by decide)

theorem denotes_int (i : Int) : Denotes style (toString i) (.int i) := by
  intro fuel rest hfuel hrest
  obtain ⟨fuel, rfl⟩ : ∃ n, fuel = n + 1 := ⟨fuel - 1, by omega⟩
  obtain ⟨c, tail, hcons, hc⟩ := exists_head_toString i
  have hpart : isWordPart c = true := by
    rcases hc with rfl | hdigit
    · decide
    · exact isWordPart_of_isDigit hdigit
  have halpha : c.isAlpha = false := by
    rcases hc with rfl | hdigit
    · decide
    · exact (Text.digit_cases hdigit).1
  have hhead : ((toString i).toList ++ rest).head? = some c := by
    rw [hcons]
    rfl
  rw [decodeValue_word hhead hpart, decodeConstant_eq_none hhead halpha, Option.none_or,
    decodeInt_append i hrest]
  rfl

theorem decodeValue_closing (fuel : Nat) (s : List Char) :
    decodeValue style fuel (']' :: s) = none := by
  cases fuel with
  | zero => rfl
  | succ fuel => cases style <;> rfl

theorem denotes_list {texts : List String} {items : List Json}
    (h : List.Forall₂ (Denotes style) texts items) :
    Denotes style ("[" ++ ", ".intercalate texts ++ "]") (.arr items) := by
  intro fuel rest hfuel _
  obtain ⟨fuel, rfl⟩ : ∃ n, fuel = n + 1 := ⟨fuel - 1, by omega⟩
  have hbrackets : "[".length = 1 ∧ "]".length = 1 := by decide
  simp only [String.length_append] at hfuel
  have hlist : ("[" ++ ", ".intercalate texts ++ "]").toList ++ rest =
      '[' :: ((", ".intercalate texts).toList ++ ']' :: rest) := by
    simp
  have hread := readItems_of_forall₂ (by simp [Ended, isWordPart]) (by decide)
    (decodeValue_closing fuel) h (fun _ _ hshort hvalue => hvalue.readBy hshort) (by omega) rest
  rw [hlist, decodeValue, if_neg (by simp), if_pos List.head?_cons, List.tail_cons, hread]
  rfl

/-- A key as a string literal, and a text of its value. -/
def DenotesEntry (style : MapStyle) (text : String) (entry : String × Json) : Prop :=
  ∃ value, text = stringLiteral entry.1 ++ ": " ++ value ∧ Denotes style value entry.2

theorem DenotesEntry.readBy {text : String} {entry : String × Json}
    (h : DenotesEntry style text entry) {fuel : Nat} (hfuel : text.length < fuel) :
    ReadBy (readLabelled decodeString (decodeValue style fuel)) text entry := by
  obtain ⟨value, rfl, hvalue⟩ := h
  simp only [String.length_append] at hfuel
  exact readLabelled_append (fun _ => decodeString_stringLiteral _ _) (hvalue.readBy (by omega))

theorem denotes_map {texts : List String} {entries : List (String × Json)}
    (h : List.Forall₂ (DenotesEntry style) texts entries) :
    Denotes style (style.head ++ "\x7b" ++ ", ".intercalate texts ++ "\x7d") (.obj entries) := by
  intro fuel rest hfuel _
  obtain ⟨fuel, rfl⟩ : ∃ n, fuel = n + 1 := ⟨fuel - 1, by omega⟩
  have hbrackets : "\x7b".length = 1 ∧ "\x7d".length = 1 := by decide
  simp only [String.length_append] at hfuel
  have hlist : (style.head ++ "\x7b" ++ ", ".intercalate texts ++ "\x7d").toList ++ rest =
      (style.head ++ "\x7b").toList ++ ((", ".intercalate texts).toList ++ '\x7d' :: rest) := by
    simp
  have hopen : ∀ s, after? (style.head ++ "\x7b").toList ((style.head ++ "\x7b").toList ++ s) =
      some s := fun _ => Aggregate.after?_eq_some_iff.mpr rfl
  have hhead : ∀ s, ((style.head ++ "\x7b").toList ++ s).head? ≠ some '\'' ∧
      ((style.head ++ "\x7b").toList ++ s).head? ≠ some '[' := by
    cases style <;> simp [MapStyle.head]
  have hread : readItems '\x7d' (readLabelled decodeString (decodeValue style fuel)) fuel
      ((", ".intercalate texts).toList ++ '\x7d' :: rest) = some (entries, rest) :=
    readItems_of_forall₂ (by simp [Ended, isWordPart]) (by decide) (fun _ => rfl) h
      (fun _ _ hshort hentry => hentry.readBy hshort) (by omega) rest
  rw [hlist, decodeValue, if_neg (hhead _).1, if_neg (hhead _).2, hopen]
  dsimp only
  rw [hread]
  rfl

mutual

theorem denotes_literal (style : MapStyle) (value : Json) (h : value.FloatFree) :
    Denotes style (literal style value) value := by
  match value with
  | .null =>
      rw [literal]
      exact denotes_constant (by decide)
  | .bool b =>
      rw [literal]
      cases b <;> exact denotes_constant (by decide)
  | .int i => exact denotes_int i
  | .str s => exact denotes_string s
  | .arr items =>
      rw [literal, literalItems_eq]
      exact denotes_list (denotes_items style items h)
  | .obj entries =>
      rw [literal, literalEntries_eq]
      exact denotes_map (denotes_entries style entries h)

theorem denotes_items (style : MapStyle) (items : List Json) (h : Json.ItemsFloatFree items) :
    List.Forall₂ (Denotes style) (items.map (literal style)) items := by
  match items with
  | [] => exact .nil
  | item :: rest => exact .cons (denotes_literal style item h.1) (denotes_items style rest h.2)

theorem denotes_entries (style : MapStyle) (entries : List (String × Json))
    (h : Json.EntriesFloatFree entries) :
    List.Forall₂ (DenotesEntry style)
      (entries.map fun entry => stringLiteral entry.1 ++ ": " ++ literal style entry.2) entries := by
  match entries with
  | [] => exact .nil
  | (key, value) :: rest =>
      exact .cons ⟨_, rfl, denotes_literal style value h.1⟩ (denotes_entries style rest h.2)

end

end Values

/-- A value comes back from its literal, with what follows the literal left over. -/
theorem decode_literal (style : MapStyle) {value : Json} (hvalue : value.FloatFree)
    {rest : List Char} (hrest : Undigited rest) :
    decode style ((literal style value).toList ++ rest) = some (value, rest) := by
  have hfuel : (literal style value).length < ((literal style value).toList ++ rest).length + 1 := by
    rw [List.length_append, String.length_toList]
    omega
  exact denotes_literal style value hvalue _ rest hfuel hrest

theorem decode_literal_price :
    decode .typed "<String, dynamic>\x7b'it\\'s \\\\': [-3, '\\$5', []]\x7d;".toList =
      some (.obj [("it's \\", .arr [.int (-3), .str "$5", .arr []])], [';']) := by
  have hvalue : (Json.obj [("it's \\", .arr [.int (-3), .str "$5", .arr []])]).FloatFree := by
    simp [Json.FloatFree, Json.EntriesFloatFree, Json.ItemsFloatFree]
  have hrest : Undigited [';'] := by simp [Undigited]
  have htext : "<String, dynamic>\x7b'it\\'s \\\\': [-3, '\\$5', []]\x7d;".toList =
      (literal .typed (.obj [("it's \\", .arr [.int (-3), .str "$5", .arr []])])).toList ++ [';'] := by
    decide +kernel
  rw [htext]
  exact decode_literal .typed hvalue hrest

/-- No literal begins another, and no two values share one. -/
theorem literal_append_inj {style : MapStyle} {value other : Json} (hvalue : value.FloatFree)
    (hother : other.FloatFree) {rest more : List Char} (hrest : Undigited rest)
    (hmore : Undigited more)
    (h : (literal style value).toList ++ rest = (literal style other).toList ++ more) :
    value = other ∧ rest = more := by
  have hfirst := denotes_literal style value hvalue
    ((literal style value).length + (literal style other).length + 1) rest (by omega) hrest
  have hsecond := denotes_literal style other hother
    ((literal style value).length + (literal style other).length + 1) more (by omega) hmore
  rw [h, hsecond] at hfirst
  simpa [eq_comm] using hfirst

end Dart

end DartScaffold
