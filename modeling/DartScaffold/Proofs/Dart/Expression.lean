import DartScaffold.Dart.Literal
import DartScaffold.Proofs.Aggregate.Marker
import DartScaffold.Proofs.Dart.Word
import Mathlib.Data.List.Forall2

/-!
The expressions of a generated test, and a reader for their texts: words, strings, dates, lists, maps and
calls with named arguments. The reader does not know what the text was made from. It is told only which
call a date is followed by, since that call is a text of the settings.

What a text reads as is a relation on texts and expressions, with one lemma for each way in which a text
is put together.
-/

namespace DartScaffold.Dart

inductive Expr where
  /-- A number or a keyword. -/
  | word (text : String)
  | string (text : String)
  /-- The date that a text denotes, and the call after it. -/
  | date (text : String)
  | list (items : List Expr)
  | map (style : MapStyle) (entries : List (String × Expr))
  | call (callee : String) (args : List (String × Expr))
  deriving Repr

mutual

/-- A value written as a literal. -/
def Expr.ofJson (style : MapStyle) : Json → Expr
  | .null => .word "null"
  | .bool b => .word (if b then "true" else "false")
  | .int i => .word (toString i)
  | .float x => .word x.text
  | .str s => .string s
  | .arr items => .list (Expr.ofItems style items)
  | .obj entries => .map style (Expr.ofEntries style entries)

def Expr.ofItems (style : MapStyle) : List Json → List Expr
  | [] => []
  | item :: rest => .ofJson style item :: ofItems style rest

def Expr.ofEntries (style : MapStyle) : List (String × Json) → List (String × Expr)
  | [] => []
  | (key, value) :: rest => (key, .ofJson style value) :: ofEntries style rest

end

/-! ### The reader -/

section Reader

open Aggregate (after?)

/-- The text of a string up to its closing quote. A dollar sign that is not escaped would begin an
interpolation. What follows the string comes with it. -/
def decodeText : List Char → Option (List Char × List Char)
  | [] => none
  | '\'' :: s => some ([], s)
  | '$' :: _ => none
  | '\\' :: c :: s => (decodeText s).map fun (text, s) => (c :: text, s)
  | c :: s => (decodeText s).map fun (text, s) => (c :: text, s)

def decodeString : List Char → Option (String × List Char)
  | '\'' :: s => (decodeText s).map fun (text, s) => (String.ofList text, s)
  | _ => none

def readWord (s : List Char) : Option (String × List Char) :=
  let word := s.takeWhile isWordPart
  if word.isEmpty then none else some (String.ofList word, s.dropWhile isWordPart)

variable {α : Type}

/-- One item or more with commas between them, up to the closing bracket. -/
def readSeq (close : Char) (item : List Char → Option (α × List Char)) :
    Nat → List Char → Option (List α × List Char)
  | 0, _ => none
  | fuel + 1, s =>
    match item s with
    | some (x, c :: rest) =>
      if c = close then some ([x], rest)
      else (after? [',', ' '] (c :: rest)).bind fun rest =>
        (readSeq close item fuel rest).map fun (xs, rest) => (x :: xs, rest)
    | _ => none

/-- The items after an opening bracket. -/
def readItems (close : Char) (item : List Char → Option (α × List Char)) (fuel : Nat)
    (s : List Char) : Option (List α × List Char) :=
  if s.head? = some close then some ([], s.tail) else readSeq close item fuel s

/-- An item with a label and a colon before it. -/
def readLabelled (label : List Char → Option (String × List Char))
    (item : List Char → Option (α × List Char)) (s : List Char) :
    Option ((String × α) × List Char) := do
  let (name, s) ← label s
  let s ← after? [':', ' '] s
  let (x, s) ← item s
  return ((name, x), s)

def dateCallee : String := "DateTime.tryParse"

/-- A word, a date, or a call whose arguments `args` reads. -/
def readCall (dateCall : List Char) (args : List Char → Option (List (String × Expr) × List Char))
    (s : List Char) : Option (Expr × List Char) := do
  let (word, s) ← readWord s
  if s.head? = some '(' then
    if word = dateCallee then
      let (text, s) ← decodeString s.tail
      let s ← after? (")!".toList ++ dateCall) s
      return (.date text, s)
    else
      let (args, s) ← args s.tail
      return (.call word args, s)
  else return (.word word, s)

/-- Each nested expression takes one unit of fuel. -/
def readExpr (dateCall : List Char) : Nat → List Char → Option (Expr × List Char)
  | 0, _ => none
  | fuel + 1, s =>
    let entries := readItems '\x7d' (readLabelled decodeString (readExpr dateCall fuel)) fuel
    let args := readItems ')' (readLabelled readWord (readExpr dateCall fuel)) fuel
    if s.head? = some '\'' then
      (decodeString s).map fun (text, s) => (.string text, s)
    else if s.head? = some '[' then
      (readItems ']' (readExpr dateCall fuel) fuel s.tail).map fun (items, s) => (.list items, s)
    else if s.head? = some '\x7b' then
      (entries s.tail).map fun (entries, s) => (.map .plain entries, s)
    else if s.head? = some '<' then
      (after? "<String, dynamic>\x7b".toList s).bind fun s =>
        (entries s).map fun (entries, s) => (.map .typed entries, s)
    else readCall dateCall args s

/-- The expression that a whole text is. -/
def read (dateCall text : String) : Option Expr :=
  match readExpr dateCall.toList (text.length + 1) text.toList with
  | some (e, []) => some e
  | _ => none

end Reader

/-! ### What a text reads as -/

/-- A text at which a word ends, and which does not make the word a call. -/
def Ended (s : List Char) : Prop :=
  ∀ c ∈ s.head?, isWordPart c = false ∧ c ≠ '('

/-- The text is this expression, whatever follows it. -/
def Reads (dateCall text : String) (e : Expr) : Prop :=
  ∀ fuel rest, text.length < fuel → Ended rest →
    readExpr dateCall.toList fuel (text.toList ++ rest) = some (e, rest)

theorem Reads.read {dateCall text : String} {e : Expr} (h : Reads dateCall text e) :
    Dart.read dateCall text = some e := by
  have hwhole := h (text.length + 1) [] (by omega) (by simp [Ended])
  rw [List.append_nil] at hwhole
  rw [Dart.read, hwhole]

example : read ".utc()" "a.B(id: 1, on: [DateTime.tryParse('x')!.utc(), 'it\\'s'])" =
    some (.call "a.B" [("id", .word "1"), ("on", .list [.date "x", .string "it's"])]) := by rfl

/-! ### Strings and words -/

theorem decodeText_cons {c : Char} (h : escapeChar c = [c]) (s : List Char) :
    decodeText (c :: s) = (decodeText s).map fun (text, s) => (c :: text, s) := by
  have hplain : c ≠ '\\' ∧ c ≠ '\'' ∧ c ≠ '$' := by
    refine ⟨?_, ?_, ?_⟩ <;> rintro rfl <;> exact absurd h (by decide)
  rw [decodeText.eq_def]
  split <;> simp_all

theorem decodeText_escapeChar (c : Char) (s : List Char) :
    decodeText (escapeChar c ++ s) = (decodeText s).map fun (text, s) => (c :: text, s) := by
  by_cases hplain : escapeChar c = [c]
  · rw [hplain]
    exact decodeText_cons hplain s
  · have hescaped : escapeChar c = ['\\', c] := by
      rw [escapeChar] at hplain ⊢
      split
      · rfl
      · rename_i hnone
        exact absurd (if_neg hnone) hplain
    rw [hescaped]
    rfl

/-- Whatever ends an escaped text, the characters of the text come before it. -/
theorem decodeText_append (text s : List Char) :
    decodeText (text.flatMap escapeChar ++ s) =
      (decodeText s).map fun (more, s) => (text ++ more, s) := by
  induction text with
  | nil => simp
  | cons c text ih =>
      rw [List.flatMap_cons, List.append_assoc, decodeText_escapeChar, ih, Option.map_map]
      rfl

theorem decodeString_stringLiteral (text : String) (rest : List Char) :
    decodeString ((stringLiteral text).toList ++ rest) = some (text, rest) := by
  have hlist : (stringLiteral text).toList ++ rest =
      '\'' :: (text.toList.flatMap escapeChar ++ '\'' :: rest) := by
    simp [stringLiteral]
  rw [hlist, decodeString, decodeText_append]
  simp [decodeText]

theorem readWord_append {text : String} (h : IsWord text) {rest : List Char}
    (hrest : ∀ c ∈ rest.head?, isWordPart c = false) :
    readWord (text.toList ++ rest) = some (text, rest) := by
  have hne : text.toList ≠ [] := by simpa using h.ne
  rw [readWord, Text.takeWhile_append_stop h.inWord hrest, Text.dropWhile_append_stop h.inWord hrest]
  simp [hne, List.isEmpty_iff]

/-! ### Items -/

section Items

variable {α : Type} {item : List Char → Option (α × List Char)} {close : Char}

/-- Whatever ends the text, the item is read from it. -/
def ReadBy (item : List Char → Option (α × List Char)) (text : String) (x : α) : Prop :=
  ∀ rest, Ended rest → item (text.toList ++ rest) = some (x, rest)

theorem ended_comma (s : List Char) : Ended (',' :: s) := by
  simp [Ended, isWordPart]

theorem intercalate_cons (text next : String) (texts : List String) :
    ", ".intercalate (text :: next :: texts) =
      text ++ ", " ++ ", ".intercalate (next :: texts) := by
  simp

theorem toList_intercalate_cons (text next : String) (texts : List String) :
    (", ".intercalate (text :: next :: texts)).toList =
      text.toList ++ ',' :: ' ' :: (", ".intercalate (next :: texts)).toList := by
  simp

/-- The first item is read up to a comma or up to the closing bracket. -/
theorem exists_rest_of_intercalate (hclose : ∀ s, Ended (close :: s)) (text : String)
    (texts : List String) (rest : List Char) :
    ∃ more, Ended more ∧
      (", ".intercalate (text :: texts)).toList ++ close :: rest = text.toList ++ more := by
  cases texts with
  | nil => exact ⟨close :: rest, hclose rest, by simp⟩
  | cons next texts =>
      refine ⟨',' :: ' ' :: ((", ".intercalate (next :: texts)).toList ++ close :: rest),
        ended_comma _, ?_⟩
      rw [toList_intercalate_cons, List.append_assoc]
      rfl

theorem readSeq_intercalate (hclose : ∀ s, Ended (close :: s)) (hcomma : close ≠ ',')
    {text : String} {texts : List String} {xs : List α}
    (h : List.Forall₂ (ReadBy item) (text :: texts) xs) {fuel : Nat} (hfuel : texts.length < fuel)
    (rest : List Char) :
    readSeq close item fuel ((", ".intercalate (text :: texts)).toList ++ close :: rest) =
      some (xs, rest) := by
  induction texts generalizing text xs fuel with
  | nil =>
      obtain ⟨x, xs, hx, hxs, rfl⟩ := List.forall₂_cons_left_iff.mp h
      obtain rfl := List.forall₂_nil_left_iff.mp hxs
      obtain ⟨fuel, rfl⟩ := Nat.exists_eq_add_of_lt hfuel
      have hread := hx (close :: rest) (hclose rest)
      simp [readSeq, hread]
  | cons next texts ih =>
      obtain ⟨x, xs, hx, hxs, rfl⟩ := List.forall₂_cons_left_iff.mp h
      obtain ⟨fuel, rfl⟩ : ∃ n, fuel = n + 1 := ⟨fuel - 1, by omega⟩
      have hrest := ih hxs (show texts.length < fuel by simpa using hfuel)
      rw [toList_intercalate_cons, List.append_assoc, List.cons_append, List.cons_append, readSeq,
        hx _ (ended_comma _)]
      simp only [if_neg hcomma.symm, Aggregate.after?, if_true, Option.bind_some, hrest,
        Option.map_some]

theorem readItems_intercalate (hclose : ∀ s, Ended (close :: s)) (hcomma : close ≠ ',')
    (hstop : ∀ s, item (close :: s) = none) {texts : List String} {xs : List α}
    (h : List.Forall₂ (ReadBy item) texts xs) {fuel : Nat} (hfuel : texts.length ≤ fuel)
    (rest : List Char) :
    readItems close item fuel ((", ".intercalate texts).toList ++ close :: rest) =
      some (xs, rest) := by
  cases texts with
  | nil =>
      obtain rfl := List.forall₂_nil_left_iff.mp h
      simp [readItems]
  | cons text texts =>
      -- an item is no closing bracket
      obtain ⟨x, -, hx, -, -⟩ := List.forall₂_cons_left_iff.mp h
      obtain ⟨more, hmore, heq⟩ := exists_rest_of_intercalate hclose text texts rest
      have hread := hx more hmore
      have hhead : ((", ".intercalate (text :: texts)).toList ++ close :: rest).head? ≠
          some close := by
        intro hhead
        obtain ⟨s, hs⟩ := List.head?_eq_some_iff.mp hhead
        rw [← heq, hs, hstop] at hread
        contradiction
      rw [readItems, if_neg hhead]
      exact readSeq_intercalate hclose hcomma h hfuel rest

theorem readLabelled_append {label : List Char → Option (String × List Char)}
    {key name text : String} {x : α}
    (hlabel : ∀ rest, label (key.toList ++ ':' :: rest) = some (name, ':' :: rest))
    (h : ReadBy item text x) : ReadBy (readLabelled label item) (key ++ ": " ++ text) (name, x) := by
  intro rest hrest
  have hitem := h rest hrest
  simp [readLabelled, hlabel, Aggregate.after?, hitem]

end Items

/-! ### Expressions -/

section Expressions

variable {d : String}

theorem reads_string (text : String) : Reads d (stringLiteral text) (.string text) := by
  intro fuel rest hfuel _
  obtain ⟨fuel, rfl⟩ : ∃ n, fuel = n + 1 := ⟨fuel - 1, by omega⟩
  have hread := decodeString_stringLiteral text rest
  have hlist : (stringLiteral text).toList ++ rest =
      '\'' :: (text.toList.flatMap escapeChar ++ '\'' :: rest) := by
    simp [stringLiteral]
  rw [hlist] at hread ⊢
  rw [readExpr, if_pos List.head?_cons, hread]
  rfl

/-- A text that starts with a word is a word or a call. -/
theorem readExpr_word {text : String} (h : IsWord text) (call : List Char) (fuel : Nat)
    (rest : List Char) :
    readExpr call (fuel + 1) (text.toList ++ rest) =
      readCall call (readItems ')' (readLabelled readWord (readExpr call fuel)) fuel)
        (text.toList ++ rest) := by
  obtain ⟨c, tail, htext⟩ := List.exists_cons_of_ne_nil (show text.toList ≠ [] by simpa using h.ne)
  have hc : isWordPart c = true := h.inWord c (htext ▸ List.mem_cons_self)
  have hne : ∀ other, isWordPart other = false → (text.toList ++ rest).head? ≠ some other := by
    intro other hother hhead
    rw [htext] at hhead
    obtain rfl : c = other := by simpa using hhead
    exact Bool.noConfusion (hother.symm.trans hc)
  rw [readExpr, if_neg (hne '\'' (by decide)), if_neg (hne '[' (by decide)),
    if_neg (hne '\x7b' (by decide)), if_neg (hne '<' (by decide))]

theorem readCall_append {text : String} (h : IsWord text) {rest : List Char}
    (hrest : ∀ c ∈ rest.head?, isWordPart c = false) (call : List Char)
    (args : List Char → Option (List (String × Expr) × List Char)) :
    readCall call args (text.toList ++ rest) =
      if rest.head? = some '(' then
        if text = dateCallee then do
          let (text, s) ← decodeString rest.tail
          let s ← Aggregate.after? (")!".toList ++ call) s
          return (.date text, s)
        else do
          let (args, s) ← args rest.tail
          return (.call text args, s)
      else some (.word text, rest) := by
  rw [readCall, readWord_append h hrest]
  rfl

theorem reads_word {text : String} (h : IsWord text) : Reads d text (.word text) := by
  intro fuel rest hfuel hrest
  obtain ⟨fuel, rfl⟩ : ∃ n, fuel = n + 1 := ⟨fuel - 1, by omega⟩
  have hcall : rest.head? ≠ some '(' := fun hhead => (hrest _ hhead).2 rfl
  rw [readExpr_word h, readCall_append h (fun c hc => (hrest c hc).1), if_neg hcall]

theorem reads_date (text : String) :
    Reads d ("DateTime.tryParse(" ++ stringLiteral text ++ ")!" ++ d) (.date text) := by
  intro fuel rest hfuel _
  obtain ⟨fuel, rfl⟩ : ∃ n, fuel = n + 1 := ⟨fuel - 1, by omega⟩
  have hword : IsWord dateCallee := ⟨by decide, by decide⟩
  have hlist : ("DateTime.tryParse(" ++ stringLiteral text ++ ")!" ++ d).toList ++ rest =
      dateCallee.toList ++ '(' :: ((stringLiteral text).toList ++ (")!".toList ++ d.toList ++ rest)) := by
    simp [dateCallee]
  have hcall : Aggregate.after? (")!".toList ++ d.toList) (")!".toList ++ d.toList ++ rest) =
      some rest := Aggregate.after?_eq_some_iff.mpr rfl
  rw [hlist, readExpr_word hword, readCall_append hword (by simp [isWordPart])]
  simp only [List.head?_cons, List.tail_cons, if_true, decodeString_stringLiteral, Option.bind_eq_bind,
    Option.bind_some, hcall]
  rfl

/-! ### Brackets -/

theorem length_le_intercalate {texts : List String} {text : String} (h : text ∈ texts) :
    text.length ≤ (", ".intercalate texts).length := by
  induction texts with
  | nil => simp at h
  | cons first texts ih =>
      cases texts with
      | nil => simp_all
      | cons next texts =>
          have hlist := congrArg List.length (toList_intercalate_cons first next texts)
          simp only [List.length_append, List.length_cons, String.length_toList] at hlist
          rcases List.mem_cons.mp h with rfl | h
          · omega
          · have hnext := ih h
            omega

theorem length_texts_le_intercalate (texts : List String) :
    texts.length ≤ (", ".intercalate texts).length + 1 := by
  induction texts with
  | nil => simp
  | cons first texts ih =>
      cases texts with
      | nil => simp
      | cons next texts =>
          have hlist := congrArg List.length (toList_intercalate_cons first next texts)
          simp only [List.length_append, List.length_cons, String.length_toList] at hlist ih ⊢
          omega

theorem readWord_of_stop {c : Char} (h : isWordPart c = false) (s : List Char) :
    readWord (c :: s) = none := by
  simp [readWord, h]

theorem readExpr_closing (call : List Char) (fuel : Nat) (s : List Char) :
    readExpr call fuel (']' :: s) = none := by
  cases fuel with
  | zero => rfl
  | succ fuel => simp [readExpr, readCall, readWord_of_stop (show isWordPart ']' = false by decide)]

theorem Reads.readBy {text : String} {e : Expr} (h : Reads d text e) {fuel : Nat}
    (hfuel : text.length < fuel) : ReadBy (readExpr d.toList fuel) text e :=
  fun rest hrest => h fuel rest hfuel hrest

/-- An expression with a label, which the text shows as `label` does. -/
def ReadsLabelled (d : String) (label : String → String) (text : String) (entry : String × Expr) :
    Prop :=
  ∃ value, text = label entry.1 ++ ": " ++ value ∧ Reads d value entry.2

/-- The texts between brackets are shorter than the whole, so the fuel suffices for each. -/
theorem readItems_of_forall₂ {α : Type} {R : String → α → Prop}
    {item : List Char → Option (α × List Char)} {close : Char} (hclose : ∀ s, Ended (close :: s))
    (hcomma : close ≠ ',') (hstop : ∀ s, item (close :: s) = none) {texts : List String}
    {xs : List α} (h : List.Forall₂ R texts xs) {fuel : Nat}
    (hitem : ∀ text x, text.length < fuel → R text x → ReadBy item text x)
    (hfuel : (", ".intercalate texts).length < fuel) (rest : List Char) :
    readItems close item fuel ((", ".intercalate texts).toList ++ close :: rest) =
      some (xs, rest) := by
  have hcount := length_texts_le_intercalate texts
  have hboth : List.Forall₂ (fun text x => text.length < fuel ∧ R text x) texts xs :=
    (List.forall₂_and_left _ _).mpr ⟨fun text htext =>
      Nat.lt_of_le_of_lt (length_le_intercalate htext) hfuel, h⟩
  exact readItems_intercalate hclose hcomma hstop (hboth.imp fun text x hx => hitem text x hx.1 hx.2)
    (by omega) rest

theorem ReadsLabelled.readBy {label : String → String} {text : String} {entry : String × Expr}
    (h : ReadsLabelled d label text entry) {reader : List Char → Option (String × List Char)}
    (hlabel : ∀ rest, reader ((label entry.1).toList ++ ':' :: rest) = some (entry.1, ':' :: rest))
    {fuel : Nat} (hfuel : text.length < fuel) :
    ReadBy (readLabelled reader (readExpr d.toList fuel)) text entry := by
  obtain ⟨value, rfl, hvalue⟩ := h
  simp only [String.length_append] at hfuel
  exact readLabelled_append hlabel (hvalue.readBy (by omega))

theorem reads_list {texts : List String} {es : List Expr} (h : List.Forall₂ (Reads d) texts es) :
    Reads d ("[" ++ ", ".intercalate texts ++ "]") (.list es) := by
  intro fuel rest hfuel _
  obtain ⟨fuel, rfl⟩ : ∃ n, fuel = n + 1 := ⟨fuel - 1, by omega⟩
  have hbrackets : "[".length = 1 ∧ "]".length = 1 := by decide
  simp only [String.length_append] at hfuel
  have hlist : ("[" ++ ", ".intercalate texts ++ "]").toList ++ rest =
      '[' :: ((", ".intercalate texts).toList ++ ']' :: rest) := by
    simp
  have hread := readItems_of_forall₂ (by simp [Ended, isWordPart]) (by decide)
    (readExpr_closing d.toList fuel) h (fun text e hshort he => he.readBy hshort) (by omega) rest
  rw [hlist, readExpr, if_neg (by simp), if_pos List.head?_cons, List.tail_cons, hread]
  rfl

theorem reads_map (style : MapStyle) {texts : List String} {entries : List (String × Expr)}
    (h : List.Forall₂ (ReadsLabelled d stringLiteral) texts entries) :
    Reads d (style.head ++ "\x7b" ++ ", ".intercalate texts ++ "\x7d") (.map style entries) := by
  intro fuel rest hfuel _
  obtain ⟨fuel, rfl⟩ : ∃ n, fuel = n + 1 := ⟨fuel - 1, by omega⟩
  have hbrackets : "\x7b".length = 1 ∧ "\x7d".length = 1 := by decide
  simp only [String.length_append] at hfuel
  have hlist : (style.head ++ "\x7b" ++ ", ".intercalate texts ++ "\x7d").toList ++ rest =
      style.head.toList ++ '\x7b' :: ((", ".intercalate texts).toList ++ '\x7d' :: rest) := by
    simp
  have hread : readItems '\x7d' (readLabelled decodeString (readExpr d.toList fuel)) fuel
      ((", ".intercalate texts).toList ++ '\x7d' :: rest) = some (entries, rest) :=
    readItems_of_forall₂ (by simp [Ended, isWordPart]) (by decide) (fun _ => rfl) h
      (fun text entry hshort he => he.readBy (fun _ => decodeString_stringLiteral _ _) hshort)
      (by omega) rest
  rw [hlist]
  cases style with
  | plain =>
      rw [MapStyle.head, readExpr, String.toList_empty, List.nil_append, if_neg (by simp),
        if_neg (by simp), if_pos List.head?_cons, List.tail_cons, hread]
      rfl
  | typed =>
      have hafter : Aggregate.after? "<String, dynamic>\x7b".toList (MapStyle.typed.head.toList ++
          '\x7b' :: ((", ".intercalate texts).toList ++ '\x7d' :: rest)) =
            some ((", ".intercalate texts).toList ++ '\x7d' :: rest) :=
        Aggregate.after?_eq_some_iff.mpr rfl
      rw [readExpr, if_neg (by simp [MapStyle.head]), if_neg (by simp [MapStyle.head]),
        if_neg (by simp [MapStyle.head]), if_pos (by simp [MapStyle.head]), hafter, Option.bind_some,
        hread]
      rfl

theorem reads_call {callee : String} (hcallee : IsWord callee) (hdate : callee ≠ dateCallee)
    {texts : List String} {args : List (String × Expr)} (hnames : ∀ arg ∈ args, IsWord arg.1)
    (h : List.Forall₂ (ReadsLabelled d id) texts args) :
    Reads d (callee ++ "(" ++ ", ".intercalate texts ++ ")") (.call callee args) := by
  intro fuel rest hfuel _
  obtain ⟨fuel, rfl⟩ : ∃ n, fuel = n + 1 := ⟨fuel - 1, by omega⟩
  have hbrackets : "(".length = 1 ∧ ")".length = 1 := by decide
  simp only [String.length_append] at hfuel
  have hlist : (callee ++ "(" ++ ", ".intercalate texts ++ ")").toList ++ rest =
      callee.toList ++ '(' :: ((", ".intercalate texts).toList ++ ')' :: rest) := by
    simp
  have hboth : List.Forall₂ (fun text arg => IsWord arg.1 ∧ ReadsLabelled d id text arg) texts args :=
    ((List.forall₂_and_left _ _).mpr ⟨hnames, h.flip⟩).flip
  have hstop : ∀ s, readLabelled readWord (readExpr d.toList fuel) (')' :: s) = none := by
    intro s
    rw [readLabelled, readWord_of_stop (by decide)]
    rfl
  have hread := readItems_of_forall₂ (by simp [Ended, isWordPart]) (by decide) hstop hboth
    (fun text arg hshort harg => harg.2.readBy
      (fun _ => readWord_append harg.1 (by simp [isWordPart])) hshort) (by omega) rest
  rw [hlist, readExpr_word hcallee, readCall_append hcallee (by simp [isWordPart]),
    if_pos List.head?_cons, if_neg hdate, List.tail_cons, hread]
  rfl

/-! ### Literals -/

theorem literalItems_eq (style : MapStyle) (items : List Json) :
    literalItems style items = ", ".intercalate (items.map (literal style)) := by
  induction items with
  | nil => rfl
  | cons item rest ih =>
      cases rest with
      | nil => simp [literalItems]
      | cons next rest =>
          simp only [List.map_cons] at ih ⊢
          rw [literalItems, ih, intercalate_cons]
          simp

theorem literalEntries_eq (style : MapStyle) (entries : List (String × Json)) :
    literalEntries style entries = ", ".intercalate (entries.map fun entry =>
      stringLiteral entry.1 ++ ": " ++ literal style entry.2) := by
  induction entries with
  | nil => rfl
  | cons entry rest ih =>
      obtain ⟨key, value⟩ := entry
      cases rest with
      | nil => simp [literalEntries]
      | cons next rest =>
          simp only [List.map_cons] at ih ⊢
          rw [literalEntries, ih, intercalate_cons]
          simp

mutual

theorem reads_literal (d : String) (style : MapStyle) (value : Json) :
    Reads d (literal style value) (.ofJson style value) := by
  match value with
  | .null =>
      rw [literal]
      exact reads_word ⟨by decide, by decide⟩
  | .bool b =>
      rw [literal]
      cases b <;> exact reads_word ⟨by decide, by decide⟩
  | .int i => exact reads_word (isWord_toString_int i)
  | .float x => exact reads_word x.isWord_text
  | .str s => exact reads_string s
  | .arr items =>
      rw [literal, literalItems_eq, Expr.ofJson]
      exact reads_list (reads_items d style items)
  | .obj entries =>
      rw [literal, literalEntries_eq, Expr.ofJson]
      exact reads_map style (reads_entries d style entries)

theorem reads_items (d : String) (style : MapStyle) (items : List Json) :
    List.Forall₂ (Reads d) (items.map (literal style)) (Expr.ofItems style items) := by
  match items with
  | [] => exact .nil
  | item :: rest => exact .cons (reads_literal d style item) (reads_items d style rest)

theorem reads_entries (d : String) (style : MapStyle) (entries : List (String × Json)) :
    List.Forall₂ (ReadsLabelled d stringLiteral)
      (entries.map fun entry => stringLiteral entry.1 ++ ": " ++ literal style entry.2)
      (Expr.ofEntries style entries) := by
  match entries with
  | [] => exact .nil
  | (key, value) :: rest =>
      exact .cons ⟨_, rfl, reads_literal d style value⟩ (reads_entries d style rest)

end

end Expressions

end DartScaffold.Dart
