import DartScaffold.Proofs.Text.Case

/-!
Camel case and snake case compared. Both keep the letters and digits of a name in small letters and mark
where a piece begins, by a capital or by an underscore. Between two letters they begin pieces at the same
places; beside a digit a camel-case name shows nothing, or always the same. So it tells of a snake-case
name all but the underscores beside digits (`camelCase_eq_iff`).
-/

namespace DartScaffold.Text

/-! ### Spelling out the pieces -/

/-- A piece with its first character marked. -/
def marked (mark : Char → List Char) : List Char → List Char
  | [] => []
  | c :: rest => mark c ++ rest

/-- The pieces in small letters in a row, all but the first of them marked. -/
def spell (mark : Char → List Char) : List (List Char) → List Char
  | [] => []
  | first :: rest => first ++ rest.flatMap (marked mark)

/-- The same character by character; `begins` tells whether the next one is marked. -/
def spellChars (mark : Char → List Char) (joins : Char → List Char → Bool) :
    Bool → List Char → List Char
  | _, [] => []
  | begins, c :: rest =>
    if c.isAlphanum then
      (if begins then mark c.toLower else [c.toLower]) ++
        spellChars mark joins (!joins c rest) rest
    else spellChars mark joins begins rest

section Spell

variable (mark : Char → List Char) (joins : Char → List Char → Bool)

theorem spellChars_eq (begins : Bool) (s : List Char) :
    spellChars mark joins begins s =
      match (pieces joins s).map (List.map Char.toLower) with
      | [] => []
      | first :: rest =>
        (if begins then marked mark first else first) ++ rest.flatMap (marked mark) := by
  fun_induction pieces joins s generalizing begins with
  | case1 => rfl
  | case2 c rest hc hjoins hnil ih =>
      rw [spellChars, if_pos hc, ih, hnil]
      cases begins <;> simp [marked]
  | case3 c rest hc hjoins first more hsplit ih =>
      rw [spellChars, if_pos hc, ih, hsplit, hjoins]
      cases begins <;> simp [marked]
  | case4 c rest hc hjoins ih =>
      rw [spellChars, if_pos hc, ih, Bool.eq_false_iff.mpr hjoins]
      cases pieces joins rest <;> cases begins <;> simp [marked]
  | case5 c rest hc ih => rw [spellChars, if_neg hc, ih]

theorem spell_pieces (s : List Char) :
    spell mark ((pieces joins s).map (List.map Char.toLower)) = spellChars mark joins false s := by
  rw [spellChars_eq]
  cases (pieces joins s).map (List.map Char.toLower) with
  | nil => rfl
  | cons first rest => rfl

theorem pieces_ne_nil {s piece : List Char} (h : piece ∈ pieces joins s) : piece ≠ [] := by
  fun_induction pieces joins s with
  | case1 => simp at h
  | case2 c rest hc hjoins hnil ih => simp_all
  | case3 c rest hc hjoins first more hsplit ih =>
      rcases List.mem_cons.mp h with rfl | h
      · exact List.cons_ne_nil _ _
      · exact ih (hsplit ▸ List.mem_cons_of_mem _ h)
  | case4 c rest hc hjoins ih =>
      rcases List.mem_cons.mp h with rfl | h
      · exact List.cons_ne_nil _ _
      · exact ih h
  | case5 c rest hc ih => exact ih h

end Spell

/-- The characters of a camel-case name. -/
def camelChars (begins : Bool) (s : List Char) : List Char :=
  spellChars (fun c => [c.toUpper]) joinsWord begins s

/-- The characters of a snake-case name. -/
def snakeChars (begins : Bool) (s : List Char) : List Char :=
  spellChars (fun c => ['_', c]) joinsSnake begins s

theorem toList_camelCase (name : String) :
    (camelCase name).toList = camelChars false name.toList := by
  have hcapitalize : capitalize = marked fun c => [c.toUpper] := by
    funext word
    cases word <;> rfl
  rw [camelChars, ← spell_pieces, camelCase, words, hcapitalize]
  cases (pieces joinsWord name.toList).map (List.map Char.toLower) with
  | nil => rfl
  | cons first rest => exact String.toList_ofList

theorem intercalate_eq_spell {parts : List (List Char)} (h : ∀ part ∈ parts, part ≠ []) :
    ['_'].intercalate parts = spell (fun c => ['_', c]) parts := by
  induction parts with
  | nil => rfl
  | cons part parts ih =>
      obtain ⟨-, hrest⟩ := List.forall_mem_cons.mp h
      cases parts with
      | nil => simp [spell]
      | cons next parts =>
          obtain ⟨hnext, -⟩ := List.forall_mem_cons.mp hrest
          obtain ⟨c, next, rfl⟩ := List.exists_cons_of_ne_nil hnext
          rw [List.intercalate_cons_cons, ih hrest]
          simp [spell, marked]

theorem toList_snakeCase (name : String) :
    (snakeCase name).toList = snakeChars false name.toList := by
  rw [snakeChars, ← spell_pieces, snakeCase, String.toList_ofList, snakeParts, intercalate_eq_spell]
  intro part hpart
  obtain ⟨piece, hpiece, rfl⟩ := List.mem_map.mp hpart
  simpa using pieces_ne_nil joinsSnake hpiece

/-! ### Characters -/

/-- A property that all letters and digits have. -/
theorem forall_isAlphanum {P : Char → Prop} (h : ∀ n < 128, (Char.ofNat n).isAlphanum = true →
    P (Char.ofNat n)) {c : Char} (hc : c.isAlphanum = true) : P c := by
  have hchar := h c.toNat (ascii_of_isAlphanum hc)
  rw [Char.ofNat_toNat] at hchar
  exact hchar hc

theorem letter_cases {c : Char} (h : c.isAlpha = true) : c.isDigit = false ∧
    (c.isUpper = true ∧ c.isLower = false ∨ c.isUpper = false ∧ c.isLower = true) := by
  have halnum : c.isAlphanum = true := by simp [Char.isAlphanum, h]
  exact forall_isAlphanum (P := fun c => c.isAlpha = true → c.isDigit = false ∧
    (c.isUpper = true ∧ c.isLower = false ∨ c.isUpper = false ∧ c.isLower = true))
    (by decide +kernel) halnum h

theorem digit_cases {c : Char} (h : c.isDigit = true) :
    c.isAlpha = false ∧ c.isUpper = false ∧ c.isLower = false := by
  have halnum : c.isAlphanum = true := by simp [Char.isAlphanum, h]
  exact forall_isAlphanum (P := fun c => c.isDigit = true →
    c.isAlpha = false ∧ c.isUpper = false ∧ c.isLower = false) (by decide +kernel) halnum h

theorem toLower_facts {c : Char} (h : c.isAlphanum = true) :
    c.toLower ≠ '_' ∧ c.toLower.isDigit = c.isDigit ∧ c.toLower.isAlpha = c.isAlpha ∧
      c.toLower.isUpper = false ∧ c.toLower.toLower = c.toLower :=
  forall_isAlphanum (P := fun c => c.toLower ≠ '_' ∧ c.toLower.isDigit = c.isDigit ∧
    c.toLower.isAlpha = c.isAlpha ∧ c.toLower.isUpper = false ∧ c.toLower.toLower = c.toLower)
    (by decide +kernel) h

/-- A capital is another character only where it is a letter's. -/
theorem toUpper_facts {c : Char} (h : c.isAlphanum = true) :
    c.toLower.toUpper.toLower = c.toLower ∧ c.toLower.toUpper.isAlpha = c.isAlpha ∧
      c.toLower.toUpper.isUpper = c.isAlpha ∧ (c.isDigit = true → c.toLower.toUpper = c.toLower) :=
  forall_isAlphanum (P := fun c => c.toLower.toUpper.toLower = c.toLower ∧
    c.toLower.toUpper.isAlpha = c.isAlpha ∧ c.toLower.toUpper.isUpper = c.isAlpha ∧
    (c.isDigit = true → c.toLower.toUpper = c.toLower)) (by decide +kernel) h

/-- A camel-case name begins with a small letter or a digit. -/
theorem of_mem_head?_camelChars {s : List Char} {c : Char} (h : c ∈ (camelChars false s).head?) :
    c.isLower = true ∨ c.isDigit = true := by
  induction s with
  | nil => simp [camelChars, spellChars] at h
  | cons d rest ih =>
      rw [camelChars, spellChars] at h
      by_cases hd : d.isAlphanum = true
      · obtain rfl : d.toLower = c := by simpa [hd] using h
        obtain ⟨-, hdigit, halpha, hupper, -⟩ := toLower_facts hd
        cases hletter : d.isAlpha with
        | true =>
            rw [hletter] at halpha
            have hcases := (letter_cases halpha).2
            exact .inl (by simpa [hupper] using hcases)
        | false => exact .inr (by simpa [Char.isAlphanum, hletter, hdigit] using hd)
      · rw [if_neg hd] at h
        exact ih h

/-! ### Between letters and beside digits -/

def startsDigit : List Char → Bool
  | c :: _ => c.isDigit
  | [] => false

/-- A letter joins the same text in both spellings, unless a digit is next. -/
theorem joins_of_isAlpha {c : Char} {rest : List Char} (hc : c.isAlpha = true)
    (hrest : startsDigit rest = false) : joinsSnake c rest = joinsWord c rest := by
  cases rest with
  | nil => rfl
  | cons b rest =>
      have hb : b.isDigit = false := hrest
      obtain ⟨hdigit, hc⟩ := letter_cases hc
      rw [joinsSnake, joinsWord, Char.isAlphanum, hb, hdigit]
      cases hletter : b.isAlpha with
      | true =>
          obtain ⟨-, hb⟩ := letter_cases hletter
          rcases hc with ⟨hu, hl⟩ | ⟨hu, hl⟩ <;> rcases hb with ⟨hbu, hbl⟩ | ⟨hbu, hbl⟩ <;>
            simp [hu, hl, hbu, hbl]
      | false =>
          obtain ⟨hbu, hbl⟩ := Bool.or_eq_false_iff.mp hletter
          simp [hbu, hbl]

/-- After a digit every letter begins a word. -/
theorem joinsWord_of_isDigit {c : Char} {rest : List Char} (hc : c.isDigit = true)
    (hrest : startsDigit rest = false) : joinsWord c rest = false := by
  cases rest with
  | nil => rfl
  | cons b rest =>
      have hb : b.isDigit = false := hrest
      obtain ⟨-, hu, hl⟩ := digit_cases hc
      simp [joinsWord, hb, hu, hl]

/-- The text without the underscores beside a digit. -/
def loosen (afterDigit : Bool) : List Char → List Char
  | [] => []
  | c :: rest =>
    if c = '_' then
      if afterDigit || startsDigit rest then loosen afterDigit rest else c :: loosen false rest
    else c :: loosen c.isDigit rest

/-- The camel-case spelling of a loosened snake-case name. -/
def camelOfLoose (begins : Bool) : List Char → List Char
  | [] => []
  | c :: rest =>
    if c = '_' then camelOfLoose true rest
    else (if begins then c.toUpper else c) :: camelOfLoose c.isDigit rest

/-- The loosened snake-case spelling of a camel-case name. -/
def looseOfCamel (afterLetter : Bool) : List Char → List Char
  | [] => []
  | c :: rest =>
    (if c.isUpper && afterLetter then ['_', c.toLower] else [c.toLower]) ++
      looseOfCamel c.isAlpha rest

/-- How the marks before a text agree in both spellings: a capital stands where an underscore stands, or
after a digit, unless a digit is next. -/
def Aligned (afterDigit cut begins : Bool) (s : List Char) : Prop :=
  startsDigit s = true ∨ begins = (afterDigit || cut)

theorem aligned_next {c : Char} (hc : c.isAlphanum = true) (rest : List Char) :
    Aligned c.isDigit (!joinsSnake c rest) (!joinsWord c rest) rest := by
  cases hrest : startsDigit rest with
  | true => exact .inl hrest
  | false =>
      refine .inr ?_
      rcases Bool.or_eq_true_iff.mp hc with hletter | hdigit
      · rw [joins_of_isAlpha hletter hrest, (letter_cases hletter).1, Bool.false_or]
      · rw [joinsWord_of_isDigit hdigit hrest, hdigit]
        rfl

/-- The next letter or digit with its underscore, if that is kept. -/
theorem loosen_snakeChars_cons {c : Char} (hc : c.isAlphanum = true) (afterDigit cut : Bool)
    (rest : List Char) :
    loosen afterDigit (snakeChars cut (c :: rest)) =
      (if cut && !afterDigit && !c.isDigit then ['_', c.toLower] else [c.toLower]) ++
        loosen c.isDigit (snakeChars (!joinsSnake c rest) rest) := by
  obtain ⟨hne, hdigit, -⟩ := toLower_facts hc
  rw [snakeChars, spellChars, if_pos hc]
  cases cut <;> cases afterDigit <;> cases hd : c.isDigit <;>
    simp [loosen, startsDigit, snakeChars, hne, hdigit, hd]

theorem camelChars_cons {c : Char} (hc : c.isAlphanum = true) (begins : Bool) (rest : List Char) :
    camelChars begins (c :: rest) =
      (if begins then c.toLower.toUpper else c.toLower) :: camelChars (!joinsWord c rest) rest := by
  rw [camelChars, spellChars, if_pos hc]
  cases begins <;> rfl

theorem camelOfLoose_loosen {afterDigit cut begins : Bool} {s : List Char}
    (h : Aligned afterDigit cut begins s) :
    camelOfLoose afterDigit (loosen afterDigit (snakeChars cut s)) = camelChars begins s := by
  induction s generalizing afterDigit cut begins with
  | nil => rfl
  | cons c rest ih =>
      by_cases hc : c.isAlphanum = true
      · obtain ⟨hne, hdigit, -⟩ := toLower_facts hc
        obtain ⟨-, -, -, hsame⟩ := toUpper_facts hc
        have hrest := ih (aligned_next hc rest)
        rw [loosen_snakeChars_cons hc, camelChars_cons hc, ← hrest]
        rcases h with hd | rfl
        · have hd : c.isDigit = true := hd
          simp [camelOfLoose, hne, hdigit, hd, hsame hd]
        · cases hd : c.isDigit with
          | true => simp [camelOfLoose, hne, hdigit, hd, hsame hd]
          | false => cases afterDigit <;> cases cut <;> simp [camelOfLoose, hne, hdigit, hd]
      · have hskip : Aligned afterDigit cut begins rest :=
          .inr (h.resolve_left fun hd => hc (Bool.or_eq_true_iff.mpr (.inr hd)))
        have hnext := ih hskip
        rw [snakeChars, camelChars] at hnext ⊢
        rw [spellChars, if_neg hc, spellChars, if_neg hc, hnext]

theorem looseOfCamel_camelChars {afterDigit afterLetter cut begins : Bool} {s : List Char}
    (h : Aligned afterDigit cut begins s)
    (hmark : ((afterDigit || cut) && afterLetter) = (cut && !afterDigit)) :
    looseOfCamel afterLetter (camelChars begins s) = loosen afterDigit (snakeChars cut s) := by
  induction s generalizing afterDigit afterLetter cut begins with
  | nil => rfl
  | cons c rest ih =>
      by_cases hc : c.isAlphanum = true
      · obtain ⟨-, -, halpha, hupper, hlower⟩ := toLower_facts hc
        obtain ⟨hback, halpha', hupper', hsame⟩ := toUpper_facts hc
        have hnext : ((c.isDigit || !joinsSnake c rest) && c.isAlpha) =
            (!joinsSnake c rest && !c.isDigit) := by
          rcases Bool.or_eq_true_iff.mp hc with hletter | hdigit
          · simp [(letter_cases hletter).1, hletter]
          · simp [hdigit, (digit_cases hdigit).1]
        have hrest := ih (aligned_next hc rest) hnext
        have hshown : (begins && c.isAlpha && afterLetter) = (cut && !afterDigit && !c.isDigit) := by
          rcases h with hd | rfl
          · have hd : c.isDigit = true := hd
            simp [hd, (digit_cases hd).1]
          · cases hd : c.isDigit with
            | true => simp [(digit_cases hd).1]
            | false =>
                have hletter : c.isAlpha = true := by simpa [Char.isAlphanum, hd] using hc
                simpa [hletter] using hmark
        rw [loosen_snakeChars_cons hc, camelChars_cons hc, ← hrest, ← hshown]
        cases begins with
        | false => simp [looseOfCamel, halpha, hupper, hlower]
        | true => simp only [looseOfCamel, halpha', hupper', hback, if_true, Bool.true_and]
      · have hskip : Aligned afterDigit cut begins rest :=
          .inr (h.resolve_left fun hd => hc (Bool.or_eq_true_iff.mpr (.inr hd)))
        have hnext := ih hskip hmark
        rw [snakeChars, camelChars] at hnext ⊢
        rw [spellChars, if_neg hc, spellChars, if_neg hc, hnext]

/-- A snake-case name without the underscores beside digits. -/
def looseSnake (name : String) : String :=
  String.ofList (loosen false (snakeCase name).toList)

/-- Two names have one camel-case spelling if and only if their snake-case spellings are the same but for
underscores beside digits. -/
theorem camelCase_eq_iff (name other : String) :
    camelCase name = camelCase other ↔ looseSnake name = looseSnake other := by
  have halign : ∀ name : String, Aligned false false false name.toList := fun _ => .inr rfl
  have hcamel : ∀ name : String,
      (camelCase name).toList = camelOfLoose false (looseSnake name).toList := fun name => by
    rw [looseSnake, String.toList_ofList, toList_snakeCase, toList_camelCase,
      camelOfLoose_loosen (halign name)]
  have hloose : ∀ name : String, looseSnake name =
      String.ofList (looseOfCamel false (camelCase name).toList) := fun name => by
    have hback := @looseOfCamel_camelChars false false false false name.toList (halign name) rfl
    rw [looseSnake, toList_snakeCase, toList_camelCase, hback]
  constructor
  · intro h
    rw [hloose, hloose, h]
  · intro h
    rw [← String.toList_inj, hcamel, hcamel, h]

/-! ### Names without digits -/

theorem isDigit_of_mem_snakeChars {s : List Char} (h : ∀ c ∈ s, c.isDigit = false) (cut : Bool) :
    ∀ c ∈ snakeChars cut s, c.isDigit = false := by
  rw [snakeChars]
  induction s generalizing cut with
  | nil => exact List.forall_mem_nil _
  | cons c rest ih =>
      obtain ⟨hc, hrest⟩ := List.forall_mem_cons.mp h
      rw [spellChars]
      split
      · rename_i halphanum
        have hlower : c.toLower.isDigit = false := (toLower_facts halphanum).2.1.trans hc
        refine List.forall_mem_append.mpr ⟨?_, ih hrest _⟩
        cases cut with
        | true => exact List.forall_mem_cons.mpr ⟨rfl, List.forall_mem_singleton.mpr hlower⟩
        | false => exact List.forall_mem_singleton.mpr hlower
      · exact ih hrest cut

theorem loosen_of_no_digit {s : List Char} (h : ∀ c ∈ s, c.isDigit = false) : loosen false s = s := by
  induction s with
  | nil => rfl
  | cons c rest ih =>
      obtain ⟨hc, hrest⟩ := List.forall_mem_cons.mp h
      have hstart : startsDigit rest = false := by
        cases rest with
        | nil => rfl
        | cons d rest => exact hrest d List.mem_cons_self
      simp [loosen, hstart, hc, ih hrest]

theorem looseSnake_of_no_digit {name : String} (h : ∀ c ∈ name.toList, c.isDigit = false) :
    looseSnake name = snakeCase name := by
  rw [looseSnake, toList_snakeCase, loosen_of_no_digit (isDigit_of_mem_snakeChars h false),
    ← toList_snakeCase, String.ofList_toList]

end DartScaffold.Text
