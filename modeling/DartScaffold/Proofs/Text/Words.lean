import DartScaffold.Proofs.Text.Case
import DartScaffold.Proofs.Text.Spelling
import DartScaffold.Proofs.Text.Pattern

/-!
The words of a name as a pattern finds them, with its choices tried in order. Where a letter or digit is
next, the pattern always matches, and takes the piece that begins there. So the words miss no letter or
digit, and no spelling made of them does.
-/

namespace DartScaffold.Text

/-! ### The pattern -/

/-- The text with `fill` for each character that is no ASCII letter or digit. -/
def filled (fill : Char) (s : List Char) : List Char :=
  s.map fun c => if c.isAlphanum then c else fill

namespace Pattern

/-- No letter or digit is next: where a word ends, in a text of letters, digits and spaces. -/
def wordEnd : Pattern
  | c :: _ => if c.isAlphanum then [] else [0]
  | [] => [0]

/-- What a run of capitals may stop at: the capital of the next word, a digit or the end of the word. -/
def acronymEnd : Pattern :=
  alt (seq (one Char.isUpper) (one Char.isLower)) (alt (one Char.isDigit) wordEnd)

def acronym : Pattern :=
  seq (many Char.isUpper) (ahead acronymEnd)

def capitalized : Pattern :=
  seq (opt (one Char.isUpper)) (many Char.isLower)

def word : Pattern :=
  alt capitalized (alt acronym (alt (one Char.isUpper) (many Char.isDigit)))

end Pattern

/-- The length of the piece at the beginning of a text. -/
def pieceLength (joins : Char → List Char → Bool) : List Char → Nat
  | [] => 0
  | c :: rest => if joins c rest then pieceLength joins rest + 1 else 1


section PieceLength

variable {joins : Char → List Char → Bool}

/-- A character joins a letter or digit only. -/
def JoinsAlphanum (joins : Char → List Char → Bool) : Prop :=
  ∀ c rest, joins c rest = true → ∃ d more, rest = d :: more ∧ d.isAlphanum = true

theorem pieceLength_pos (c : Char) (rest : List Char) : 0 < pieceLength joins (c :: rest) := by
  rw [pieceLength]
  split <;> omega

theorem pieces_eq_cons (hjoins : JoinsAlphanum joins) {c : Char} (hc : c.isAlphanum = true)
    (rest : List Char) :
    pieces joins (c :: rest) = (c :: rest).take (pieceLength joins (c :: rest)) ::
      pieces joins ((c :: rest).drop (pieceLength joins (c :: rest))) := by
  induction rest generalizing c with
  | nil =>
      have hend : joins c [] = false := by
        rw [Bool.eq_false_iff]
        intro h
        simpa using hjoins c [] h
      simp [pieces, pieceLength, hc, hend]
  | cons d rest ih =>
      rw [pieces, pieceLength, if_pos hc]
      split
      · rename_i h
        obtain ⟨_, _, hcons, hd⟩ := hjoins c (d :: rest) h
        obtain ⟨rfl, rfl⟩ := List.cons.inj hcons
        rw [ih hd]
        rfl
      · rfl

end PieceLength

/-! ### The match at a letter or digit -/

theorem isAlpha_eq (c : Char) : c.isAlpha = (c.isUpper || c.isLower) :=
  rfl

theorem isLower_of_isUpper {c : Char} (hc : c.isUpper = true) : c.isLower = false := by
  simpa [hc] using (letter_cases (c := c) (by simp [isAlpha_eq, hc])).2

theorem isUpper_of_isLower {c : Char} (hc : c.isLower = true) : c.isUpper = false := by
  simpa [hc] using (letter_cases (c := c) (by simp [isAlpha_eq, hc])).2

theorem class_of_not_alphanum {c : Char} (hc : c.isAlphanum = false) :
    c.isUpper = false ∧ c.isLower = false ∧ c.isDigit = false := by
  simpa [Char.isAlphanum, isAlpha_eq, and_assoc] using hc

theorem joinsAlphanum_joinsWord : JoinsAlphanum joinsWord := by
  intro c rest h
  cases rest with
  | nil => simp [joinsWord] at h
  | cons d more =>
      refine ⟨d, more, rfl, ?_⟩
      simp only [joinsWord, Bool.or_eq_true, Bool.and_eq_true] at h
      rcases h with ((h | h) | h) | h <;> simp [Char.isAlphanum, isAlpha_eq, h]

/-- A run of characters that join one another and nothing else is taken whole. -/
theorem head?_many {p : Char → Bool} {joins : Char → List Char → Bool}
    (hjoins : ∀ c rest, p c = true → joins c rest = rest.head?.any p) {c : Char} (hc : p c = true)
    (rest : List Char) :
    (Pattern.many p (c :: rest)).head? = some (pieceLength joins (c :: rest)) := by
  induction rest generalizing c with
  | nil => simp [Pattern.many, pieceLength, hc, hjoins c [] hc]
  | cons d rest ih =>
      rw [Pattern.many, if_pos hc, pieceLength, hjoins c (d :: rest) hc]
      by_cases hd : p d = true
      · simp [ih hd, hd]
      · simp [Pattern.many, hd]

theorem joinsWord_of_isLower (c : Char) (rest : List Char) (hc : c.isLower = true) :
    joinsWord c rest = rest.head?.any Char.isLower := by
  have hdigit : c.isDigit = false := (letter_cases (by simp [isAlpha_eq, hc])).1
  cases rest with
  | nil => rfl
  | cons d rest => simp [joinsWord, hc, isUpper_of_isLower hc, hdigit]

theorem joinsWord_of_digit (c : Char) (rest : List Char) (hc : c.isDigit = true) :
    joinsWord c rest = rest.head?.any Char.isDigit := by
  obtain ⟨-, hupper, hlower⟩ := digit_cases hc
  cases rest with
  | nil => rfl
  | cons d rest => simp [joinsWord, hc, hupper, hlower]

theorem joinsWord_of_isUpper {c : Char} (hc : c.isUpper = true) (d : Char) (rest : List Char) :
    joinsWord c (d :: rest) = (d.isLower || d.isUpper && !startsLower rest) := by
  have hdigit : c.isDigit = false := (letter_cases (by simp [isAlpha_eq, hc])).1
  simp [joinsWord, hc, isLower_of_isUpper hc, hdigit]

theorem one_isLower (s : List Char) :
    Pattern.one Char.isLower s = if startsLower s then [1] else [] := by
  cases s <;> rfl

/-- A run of capitals may stop just where its last capital joins nothing. -/
theorem isEmpty_acronymEnd {c : Char} (hc : c.isUpper = true) (rest : List Char) :
    (Pattern.acronymEnd rest).isEmpty = joinsWord c rest := by
  cases rest with
  | nil => rfl
  | cons d rest =>
      have hend : Pattern.acronymEnd (d :: rest) =
          (if d.isUpper && startsLower rest then [2] else []) ++
            ((if d.isDigit then [1] else []) ++ if d.isAlphanum then [] else [0]) := by
        cases hupper : d.isUpper <;> cases hlower : startsLower rest <;>
          simp [Pattern.acronymEnd, Pattern.alt, Pattern.seq, Pattern.wordEnd, one_isLower, hupper,
            hlower]
      rw [joinsWord_of_isUpper hc, hend]
      by_cases hletter : d.isAlpha = true
      · obtain ⟨hdigit, ⟨hupper, hlower⟩ | ⟨hupper, hlower⟩⟩ := letter_cases hletter <;>
          cases startsLower rest <;> simp [Char.isAlphanum, hletter, hupper, hlower, hdigit]
      · obtain ⟨hupper, hlower⟩ : d.isUpper = false ∧ d.isLower = false := by
          simpa [isAlpha_eq] using hletter
        cases hdigit : d.isDigit <;> simp [Char.isAlphanum, hletter, hupper, hlower, hdigit]

/-- A run of capitals before no small letter is an acronym, without the last capital if that belongs to
the next word. -/
theorem head?_acronym {c : Char} (hc : c.isUpper = true) (rest : List Char) :
    (Pattern.acronym (c :: rest)).head? =
      if startsLower rest then none else some (pieceLength joinsWord (c :: rest)) := by
  induction rest generalizing c with
  | nil =>
      rw [Pattern.acronym, Pattern.head?_seq_many_cons hc]
      rfl
  | cons d rest ih =>
      rw [Pattern.acronym, Pattern.head?_seq_many_cons hc, Pattern.ahead, isEmpty_acronymEnd hc,
        pieceLength, startsLower, joinsWord_of_isUpper hc]
      by_cases hd : d.isUpper = true
      · have hrest := ih hd
        rw [Pattern.acronym] at hrest
        rw [hrest, hd, isLower_of_isUpper hd]
        cases startsLower rest <;> simp
      · rw [Pattern.seq_many_cons_of_neg (Bool.eq_false_iff.mpr hd)]
        cases d.isLower <;> simp [hd]

/-- A capital and small letters, where the capital may be missing. -/
theorem capitalized_cons (c : Char) (rest : List Char) :
    Pattern.capitalized (c :: rest) =
      (if c.isUpper then (Pattern.many Char.isLower rest).map (· + 1) else []) ++
        Pattern.many Char.isLower (c :: rest) := by
  cases hupper : c.isUpper <;>
    simp [Pattern.capitalized, Pattern.seq, Pattern.opt, hupper, Nat.add_comm]

/-- At a letter or digit the pattern takes the piece that begins there. -/
theorem head?_word {c : Char} (hc : c.isAlphanum = true) (rest : List Char) :
    (Pattern.word (c :: rest)).head? = some (pieceLength joinsWord (c :: rest)) := by
  rw [Pattern.word, Pattern.head?_alt, Pattern.head?_alt, Pattern.head?_alt, capitalized_cons]
  by_cases hletter : c.isAlpha = true
  · obtain ⟨-, ⟨hupper, hlower⟩ | ⟨hupper, hlower⟩⟩ := letter_cases hletter
    · rw [head?_acronym hupper, if_pos hupper, Pattern.many_cons_of_neg hlower]
      cases rest with
      | nil => rfl
      | cons d rest =>
          cases hd : d.isLower with
          | true =>
              have hjoins : joinsWord c (d :: rest) = true := by simp [joinsWord_of_isUpper hupper, hd]
              simp [head?_many joinsWord_of_isLower hd, pieceLength, hjoins]
          | false => simp [Pattern.many_cons_of_neg hd, startsLower, hd]
    · simp [hupper, head?_many joinsWord_of_isLower hlower]
  · have hdigit : c.isDigit = true := by simpa [Char.isAlphanum, hletter] using hc
    obtain ⟨-, hupper, hlower⟩ := digit_cases hdigit
    rw [Pattern.acronym, Pattern.many_cons_of_neg hlower, Pattern.seq_many_cons_of_neg hupper]
    simp [hupper, head?_many joinsWord_of_digit hdigit]

theorem word_eq_nil {c : Char} (hc : c.isAlphanum = false) (rest : List Char) :
    Pattern.word (c :: rest) = [] := by
  obtain ⟨hupper, hlower, hdigit⟩ := class_of_not_alphanum hc
  simp [Pattern.word, Pattern.alt, capitalized_cons, Pattern.acronym, Pattern.many_cons_of_neg,
    Pattern.seq_many_cons_of_neg, hupper, hlower, hdigit]

/-- The matches of the pattern are the pieces of the text. -/
theorem findAll_word (s : List Char) : findAll Pattern.word s = pieces joinsWord s := by
  refine flatMap_scan rfl (fun c rest n h => ?_) (fun c rest h => ?_) 0 s
  · have hc : c.isAlphanum = true := by
      rw [← Bool.not_eq_false]
      intro hc
      simp [word_eq_nil hc] at h
    have hlength : pieceLength joinsWord (c :: rest) = n + 1 := by
      simpa [head?_word hc] using h
    rw [pieces_eq_cons joinsAlphanum_joinsWord hc, hlength]
    rfl
  · have hc : c.isAlphanum = false := by
      rw [Bool.eq_false_iff]
      intro hc
      have hpos : 0 < pieceLength joinsWord (c :: rest) := pieceLength_pos c rest
      obtain ⟨n, hn⟩ := Nat.exists_eq_add_one.mpr hpos
      exact h n (by rw [head?_word hc, hn])
    simp [pieces, hc]

example : findAll Pattern.word "getHTTPResponse 2XGo".toList =
    ["get", "HTTP", "Response", "2", "X", "Go"].map String.toList := by decide

theorem filled_cons (fill c : Char) (s : List Char) :
    filled fill (c :: s) = (if c.isAlphanum then c else fill) :: filled fill s :=
  rfl

theorem class_blank (c : Char) :
    (if c.isAlphanum then c else ' ').isUpper = c.isUpper ∧
      (if c.isAlphanum then c else ' ').isLower = c.isLower ∧
        (if c.isAlphanum then c else ' ').isDigit = c.isDigit := by
  by_cases hc : c.isAlphanum = true
  · simp [hc]
  · simp [hc, class_of_not_alphanum (Bool.eq_false_iff.mpr hc)]

theorem startsLower_filled (s : List Char) : startsLower (filled ' ' s) = startsLower s := by
  cases s with
  | nil => rfl
  | cons c s => exact (class_blank c).2.1

theorem joinsWord_filled (c : Char) (s : List Char) : joinsWord c (filled ' ' s) = joinsWord c s := by
  cases s with
  | nil => rfl
  | cons d s =>
      obtain ⟨hupper, hlower, hdigit⟩ := class_blank d
      rw [filled_cons, joinsWord, hupper, hlower, hdigit, startsLower_filled, joinsWord]

theorem pieces_filled (s : List Char) : pieces joinsWord (filled ' ' s) = pieces joinsWord s := by
  induction s with
  | nil => rfl
  | cons c s ih =>
      by_cases hc : c.isAlphanum = true
      · rw [filled_cons, if_pos hc, pieces, pieces, ih, joinsWord_filled]
      · rw [filled_cons, if_neg hc, pieces, pieces, if_neg hc, ih]
        rfl

theorem words_eq_findAll (s : List Char) :
    words s = (findAll Pattern.word (filled ' ' s)).map (List.map Char.toLower) := by
  rw [findAll_word, pieces_filled, words]

/-! ### What the words are made of -/

/-- The ASCII letters and digits of a text in small letters. -/
def letters (s : List Char) : List Char :=
  (s.filter Char.isAlphanum).map Char.toLower

/-- All letters or all digits. -/
def Uniform (word : List Char) : Prop :=
  (∀ c ∈ word, c.isAlpha = true) ∨ ∀ c ∈ word, c.isDigit = true

theorem flatten_pieces (joins : Char → List Char → Bool) (s : List Char) :
    (pieces joins s).flatten = s.filter Char.isAlphanum := by
  fun_induction pieces joins s with
  | case1 => rfl
  | case2 c rest hc hjoins hnil ih => rw [List.filter_cons_of_pos hc, ← ih, hnil]; rfl
  | case3 c rest hc hjoins first more hsplit ih => rw [List.filter_cons_of_pos hc, ← ih, hsplit]; rfl
  | case4 c rest hc hjoins ih => rw [List.filter_cons_of_pos hc, ← ih]; rfl
  | case5 c rest hc ih => rw [List.filter_cons_of_neg hc, ← ih]

theorem flatten_map_pieces (joins : Char → List Char → Bool) (s : List Char) :
    ((pieces joins s).map (List.map Char.toLower)).flatten = letters s := by
  rw [← List.map_flatten, flatten_pieces, letters]

/-- Characters that are in one word are both letters or both digits. -/
theorem class_of_joinsWord {c d : Char} {rest : List Char}
    (h : joinsWord c (d :: rest) = true) :
    c.isAlpha = true ∧ d.isAlpha = true ∨ c.isDigit = true ∧ d.isDigit = true := by
  simp only [joinsWord, Bool.or_eq_true, Bool.and_eq_true] at h
  rcases h with ((h | h) | h) | h <;> simp [isAlpha_eq, h]

theorem uniform_singleton {c : Char} (hc : c.isAlphanum = true) : Uniform [c] := by
  simpa [Uniform, Char.isAlphanum] using hc

theorem Uniform.cons {c d : Char} {rest piece : List Char} (h : Uniform (d :: piece))
    (hjoins : joinsWord c (d :: rest) = true) : Uniform (c :: d :: piece) := by
  rcases class_of_joinsWord hjoins with ⟨hc, hd⟩ | ⟨hc, hd⟩
  · refine .inl (List.forall_mem_cons.mpr ⟨hc, h.resolve_right fun hdigits => ?_⟩)
    simp [(letter_cases hd).1] at hdigits
  · refine .inr (List.forall_mem_cons.mpr ⟨hc, h.resolve_left fun hletters => ?_⟩)
    simp [(digit_cases hd).1] at hletters

theorem uniform_of_mem_pieces {s piece : List Char} (h : piece ∈ pieces joinsWord s) :
    Uniform piece := by
  fun_induction pieces joinsWord s generalizing piece with
  | case1 => simp at h
  | case2 c rest hc hjoins hnil ih =>
      rw [List.mem_singleton.mp h]
      exact uniform_singleton hc
  | case3 c rest hc hjoins first more hsplit ih =>
      rcases List.mem_cons.mp h with rfl | h
      · obtain ⟨d, rest, rfl, hd⟩ := joinsAlphanum_joinsWord c rest hjoins
        obtain ⟨piece, tail, hpieces⟩ : ∃ piece tail,
            pieces joinsWord (d :: rest) = (d :: piece) :: tail := pieces_cons hd rest
        obtain ⟨rfl, -⟩ := List.cons.inj (hsplit.symm.trans hpieces)
        exact (ih (hsplit ▸ List.mem_cons_self)).cons hjoins
      · exact ih (hsplit ▸ List.mem_cons_of_mem _ h)
  | case4 c rest hc hjoins ih =>
      rcases List.mem_cons.mp h with rfl | h
      · exact uniform_singleton hc
      · exact ih h
  | case5 c rest hc ih => exact ih h

theorem Uniform.map_toLower {word : List Char} (h : Uniform word) : Uniform (word.map Char.toLower) := by
  rcases h with h | h
  · refine .inl (List.forall_mem_map.mpr fun c hc => ?_)
    rw [(toLower_facts (by simp [Char.isAlphanum, h c hc])).2.2.1, h c hc]
  · refine .inr (List.forall_mem_map.mpr fun c hc => ?_)
    rw [(toLower_facts (by simp [Char.isAlphanum, h c hc])).2.1, h c hc]

/-! ### The spellings -/

theorem map_toLower_capitalize {word : List Char} (h : IsWord word) :
    (capitalize word).map Char.toLower = word := by
  obtain ⟨piece, rfl, hpiece⟩ := h
  have hsame : ∀ c ∈ piece, c.toLower.toLower = c.toLower :=
    fun c hc => (toLower_facts (hpiece c hc)).2.2.2.2
  cases piece with
  | nil => rfl
  | cons c piece =>
      obtain ⟨hc, -⟩ := List.forall_mem_cons.mp hpiece
      obtain ⟨-, hrest⟩ := List.forall_mem_cons.mp hsame
      rw [List.map_cons, capitalize, List.map_cons, (toUpper_facts hc).1, List.map_map]
      exact congrArg _ (List.map_congr_left hrest)

theorem map_toLower_flatMap_capitalize {words : List (List Char)} (h : ∀ word ∈ words, IsWord word) :
    (words.flatMap capitalize).map Char.toLower = words.flatten := by
  induction words with
  | nil => rfl
  | cons word words ih =>
      obtain ⟨hword, hrest⟩ := List.forall_mem_cons.mp h
      rw [List.flatMap_cons, List.map_append, map_toLower_capitalize hword, ih hrest, List.flatten_cons]

theorem filter_intercalate {parts : List (List Char)} (h : ∀ part ∈ parts, '_' ∉ part) :
    (['_'].intercalate parts).filter (· ≠ '_') = parts.flatten := by
  have hsame : ∀ part ∈ parts, part.filter (· ≠ '_') = part := by
    intro part hpart
    refine List.filter_eq_self.mpr fun c hc => ?_
    simpa using fun hline : c = '_' => h part hpart (hline ▸ hc)
  induction parts with
  | nil => rfl
  | cons part parts ih =>
      obtain ⟨hpart, hrest⟩ := List.forall_mem_cons.mp hsame
      have hparts := ih (fun part hmem => h part (List.mem_cons_of_mem _ hmem)) hrest
      cases parts with
      | nil => simpa using hpart
      | cons next parts =>
          rw [List.intercalate_cons_cons, List.filter_append, List.filter_append, hpart, hparts]
          simp

theorem filter_snakeCase (name : String) :
    (snakeCase name).toList.filter (· ≠ '_') = letters name.toList := by
  rw [snakeCase, String.toList_ofList, filter_intercalate, snakeParts, flatten_map_pieces]
  intro part hpart hline
  obtain ⟨piece, hpiece, rfl⟩ := List.mem_map.mp hpart
  obtain ⟨c, hc, hlower⟩ := List.mem_map.mp hline
  exact (toLower_facts (isAlphanum_of_mem_pieces hpiece c hc)).1 hlower

theorem map_toLower_pascalCase (name : String) :
    (pascalCase name).toList.map Char.toLower = letters name.toList := by
  rw [pascalCase, String.toList_ofList,
    map_toLower_flatMap_capitalize fun _ => isWord_of_mem_words, words, flatten_map_pieces]

theorem map_toLower_camelCase (name : String) :
    (camelCase name).toList.map Char.toLower = letters name.toList := by
  have hwords : ∀ word ∈ words name.toList, IsWord word := fun _ => isWord_of_mem_words
  rw [← flatten_map_pieces joinsWord, ← words, camelCase]
  cases hsplit : words name.toList with
  | nil => rfl
  | cons first rest =>
      rw [hsplit] at hwords
      obtain ⟨⟨piece, rfl, hpiece⟩, hrest⟩ := List.forall_mem_cons.mp hwords
      have hfirst : (piece.map Char.toLower).map Char.toLower = piece.map Char.toLower := by
        rw [List.map_map]
        exact List.map_congr_left fun c hc => (toLower_facts (hpiece c hc)).2.2.2.2
      rw [String.toList_ofList, List.map_append, hfirst, map_toLower_flatMap_capitalize hrest,
        List.flatten_cons]

/-- The words of a name are what the pattern finds in it, none of them empty, each all letters or all
digits, and together they are its letters and digits. These are kept by every spelling: snake case adds
underscores only, camel case and pascal case change only the case. -/
theorem words_spellings (name : String) :
    words name.toList = (findAll Pattern.word (filled ' ' name.toList)).map (List.map Char.toLower) ∧
      (∀ word ∈ words name.toList, word ≠ [] ∧ Uniform word) ∧
      (words name.toList).flatten = letters name.toList ∧
      (snakeCase name).toList.filter (· ≠ '_') = letters name.toList ∧
      (camelCase name).toList.map Char.toLower = letters name.toList ∧
      (pascalCase name).toList.map Char.toLower = letters name.toList := by
  refine ⟨words_eq_findAll _, fun word hword => ?_, flatten_map_pieces _ _, filter_snakeCase name,
    map_toLower_camelCase name, map_toLower_pascalCase name⟩
  obtain ⟨piece, hpiece, rfl⟩ := List.mem_map.mp hword
  exact ⟨by simpa using pieces_ne_nil joinsWord hpiece, (uniform_of_mem_pieces hpiece).map_toLower⟩

end DartScaffold.Text
