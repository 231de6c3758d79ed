import DartScaffold.Proofs.Text.Blank
import DartScaffold.Proofs.Text.Words

/-!
Snake case as a normal form. It is made in passes over the text: two put underscores between words, and
the next ones write an underscore for every other character, leave one of each run of them and none at
the ends. Whatever the first passes insert is cleaned up by the last, so that groups of small letters and
digits are left, with one underscore between them; and such a text passes unchanged.
-/

namespace DartScaffold.Text

/-! ### The passes -/

namespace Pattern

def acronymThenWord : Pattern :=
  seq (many Char.isUpper) (seq (one Char.isUpper) (one Char.isLower))

def beforeCapital : Pattern :=
  seq (one fun c => c.isLower || c.isDigit) (one Char.isUpper)

def underscores : Pattern :=
  seq (one (· == '_')) (many (· == '_'))

end Pattern

/-- The text with an underscore before its last `n` characters. -/
def cutBefore (n : Nat) (s : List Char) : List Char :=
  s.take (s.length - n) ++ '_' :: s.drop (s.length - n)

def trimmed (s : List Char) : List Char :=
  (dropWhileEnd (· == '_') s).dropWhile (· == '_')

def cutWords (s : List Char) : List Char :=
  replaceAll Pattern.beforeCapital (cutBefore 1) (replaceAll Pattern.acronymThenWord (cutBefore 2) s)

def snakePasses (s : List Char) : List Char :=
  (trimmed (replaceAll Pattern.underscores (fun _ => ['_']) (filled '_' (cutWords s)))).map
    Char.toLower

/-! ### What each pass does -/

/-- The text with an underscore after each character that is cut from the text after it. -/
def cutAfter (cuts : Char → List Char → Bool) : List Char → List Char
  | [] => []
  | c :: rest => if cuts c rest then c :: '_' :: cutAfter cuts rest else c :: cutAfter cuts rest

def startsUpper : List Char → Bool
  | c :: _ => c.isUpper
  | [] => false

def startsCapitalized : List Char → Bool
  | c :: rest => c.isUpper && startsLower rest
  | [] => false

/-- The last capital of an acronym is cut from the word after it. -/
def cutsAcronym (c : Char) (rest : List Char) : Bool :=
  c.isUpper && startsCapitalized rest

def cutsCapital (c : Char) (rest : List Char) : Bool :=
  (c.isLower || c.isDigit) && startsUpper rest

theorem head?_capitalized (s : List Char) :
    (Pattern.seq (Pattern.one Char.isUpper) (Pattern.one Char.isLower) s).head? =
      if startsCapitalized s then some 2 else none := by
  cases s with
  | nil => rfl
  | cons c s => cases hupper : c.isUpper <;> cases hlower : startsLower s <;>
      simp [Pattern.seq, one_isLower, startsCapitalized, hupper, hlower]

theorem eq_cons_of_startsCapitalized {s : List Char} (h : startsCapitalized s = true) :
    ∃ d e rest, s = d :: e :: rest ∧ d.isUpper = true ∧ e.isLower = true := by
  match s with
  | [] => simp [startsCapitalized] at h
  | [d] => simp [startsCapitalized, startsLower] at h
  | d :: e :: rest => exact ⟨d, e, rest, rfl, by simpa [startsCapitalized, startsLower] using h⟩

/-- What the first pass finds: capitals before a capital and a small letter. -/
theorem eq_append_of_acronymThenWord {s : List Char} {n : Nat}
    (h : (Pattern.acronymThenWord s).head? = some n) :
    ∃ caps d e rest, s = caps ++ d :: e :: rest ∧ n = caps.length + 2 ∧ caps ≠ [] ∧
      (∀ c ∈ caps, c.isUpper = true) ∧ d.isUpper = true ∧ e.isLower = true := by
  induction s generalizing n with
  | nil => simp [Pattern.acronymThenWord, Pattern.seq, Pattern.many] at h
  | cons c s ih =>
      rw [Pattern.acronymThenWord] at h ih
      cases hc : c.isUpper with
      | false => simp [Pattern.seq_many_cons_of_neg hc] at h
      | true =>
          rw [Pattern.head?_seq_many_cons hc, head?_capitalized, Option.or_eq_some_iff] at h
          rcases h with h | ⟨-, h⟩
          · obtain ⟨m, hm, rfl⟩ := Option.map_eq_some_iff.mp h
            obtain ⟨caps, d, e, rest, rfl, rfl, -, hcaps, hd, he⟩ := ih hm
            exact ⟨c :: caps, d, e, rest, rfl, by simp, List.cons_ne_nil _ _,
              List.forall_mem_cons.mpr ⟨hc, hcaps⟩, hd, he⟩
          · by_cases hstarts : startsCapitalized s = true
            · obtain ⟨d, e, rest, rfl, hd, he⟩ := eq_cons_of_startsCapitalized hstarts
              obtain rfl : 3 = n := by simpa [hstarts] using h
              exact ⟨[c], d, e, rest, rfl, rfl, List.cons_ne_nil _ _,
                List.forall_mem_singleton.mpr hc, hd, he⟩
            · simp [hstarts] at h

theorem cutAfter_cons_of_neg {cuts : Char → List Char → Bool} {c : Char} {rest : List Char}
    (h : cuts c rest = false) : cutAfter cuts (c :: rest) = c :: cutAfter cuts rest := by
  simp [cutAfter, h]

theorem startsLower_append {caps : List Char} (hcaps : ∀ c ∈ caps, c.isUpper = true) {d : Char}
    (hd : d.isUpper = true) (rest : List Char) : startsLower (caps ++ d :: rest) = false := by
  cases caps with
  | nil => exact isLower_of_isUpper hd
  | cons c caps => exact isLower_of_isUpper (hcaps c List.mem_cons_self)

/-- Among the capitals before a word only the last is cut. -/
theorem cutAfter_acronym {caps : List Char} (hne : caps ≠ []) (hcaps : ∀ c ∈ caps, c.isUpper = true)
    {d e : Char} (hd : d.isUpper = true) (he : e.isLower = true) (rest : List Char) :
    cutAfter cutsAcronym (caps ++ d :: e :: rest) =
      caps ++ '_' :: d :: e :: cutAfter cutsAcronym rest := by
  induction caps with
  | nil => exact absurd rfl hne
  | cons c caps ih =>
      obtain ⟨hc, hrest⟩ := List.forall_mem_cons.mp hcaps
      cases caps with
      | nil => simp [cutAfter, cutsAcronym, startsCapitalized, startsLower, hc, hd, he,
          isUpper_of_isLower he]
      | cons b caps =>
          have hb : startsCapitalized (b :: (caps ++ d :: e :: rest)) = false := by
            rw [startsCapitalized, startsLower_append (List.forall_mem_cons.mp hrest).2 hd,
              Bool.and_false]
          have hcut := ih (List.cons_ne_nil _ _) hrest
          rw [List.cons_append] at hcut
          rw [List.cons_append, List.cons_append, cutAfter_cons_of_neg (by simp [cutsAcronym, hb]), hcut]
          rfl

theorem replaceAll_acronymThenWord (s : List Char) :
    replaceAll Pattern.acronymThenWord (cutBefore 2) s = cutAfter cutsAcronym s := by
  refine flatMap_scan rfl (fun c rest n h => ?_) (fun c rest h => ?_) 0 s
  · obtain ⟨caps, d, e, tail, hsplit, hlength, hne, hcaps, hd, he⟩ := eq_append_of_acronymThenWord h
    have hword : (caps ++ [d, e]).length = n + 1 := by simp [hlength]
    have hsplit' : c :: rest = (caps ++ [d, e]) ++ tail := by simpa using hsplit
    have htake : c :: rest.take n = caps ++ [d, e] := by
      rw [← List.take_succ_cons, hsplit', List.take_left' hword]
    have hdrop : rest.drop n = tail := by
      rw [← List.drop_succ_cons (a := c), hsplit', List.drop_left' hword]
    rw [hsplit, cutAfter_acronym hne hcaps hd he, htake, hdrop, Sum.elim_inl, cutBefore]
    simp
  · refine cutAfter_cons_of_neg (Bool.eq_false_iff.mpr fun hcuts => ?_)
    obtain ⟨hc, hstarts⟩ := Bool.and_eq_true_iff.mp hcuts
    -- the pattern matches at least the capital and the word after it
    have hhead : ∃ n, (Pattern.acronymThenWord (c :: rest)).head? = some (n + 1) := by
      rw [Pattern.acronymThenWord, Pattern.head?_seq_many_cons hc, head?_capitalized, if_pos hstarts]
      cases (Pattern.seq (Pattern.many Char.isUpper) _ rest).head? <;> simp
    obtain ⟨n, hn⟩ := hhead
    exact h n hn

theorem beforeCapital_cons (c : Char) (rest : List Char) :
    Pattern.beforeCapital (c :: rest) = if cutsCapital c rest then [2] else [] := by
  have hone : Pattern.one Char.isUpper rest = if startsUpper rest then [1] else [] := by
    cases rest <;> rfl
  cases hc : c.isLower || c.isDigit <;> cases hrest : startsUpper rest <;>
    simp [Pattern.beforeCapital, Pattern.seq, hone, cutsCapital, hc, hrest]

theorem replaceAll_beforeCapital (s : List Char) :
    replaceAll Pattern.beforeCapital (cutBefore 1) s = cutAfter cutsCapital s := by
  refine flatMap_scan rfl (fun c rest n h => ?_) (fun c rest h => ?_) 0 s
  · rw [beforeCapital_cons] at h
    cases hcuts : cutsCapital c rest with
    | false => simp [hcuts] at h
    | true =>
        obtain rfl : n = 1 := by simpa [hcuts] using h
        cases rest with
        | nil => simp [cutsCapital, startsUpper] at hcuts
        | cons d rest =>
            have hd : d.isUpper = true := (Bool.and_eq_true_iff.mp hcuts).2
            have hdigit : d.isDigit = false := (letter_cases (by simp [isAlpha_eq, hd])).1
            have hnext : cutsCapital d rest = false := by
              simp [cutsCapital, isLower_of_isUpper hd, hdigit]
            rw [cutAfter, if_pos hcuts, cutAfter_cons_of_neg hnext]
            rfl
  · refine cutAfter_cons_of_neg (Bool.eq_false_iff.mpr fun hcuts => h 1 ?_)
    simp [beforeCapital_cons, hcuts]

theorem startsUpper_cutAfter (cuts : Char → List Char → Bool) (s : List Char) :
    startsUpper (cutAfter cuts s) = startsUpper s := by
  cases s with
  | nil => rfl
  | cons c s =>
      rw [cutAfter]
      split <;> rfl

/-- Both passes that part words, as one. -/
theorem cutWords_eq (s : List Char) :
    cutWords s = cutAfter (fun c rest => cutsAcronym c rest || cutsCapital c rest) s := by
  rw [cutWords, replaceAll_acronymThenWord, replaceAll_beforeCapital]
  induction s with
  | nil => rfl
  | cons c rest ih =>
      cases hacronym : cutsAcronym c rest with
      | true => simp [cutAfter, hacronym, ih, cutsCapital, startsUpper]
      | false =>
          have hstarts := startsUpper_cutAfter cutsAcronym rest
          rw [cutAfter_cons_of_neg hacronym, cutAfter, cutAfter, ih]
          simp [hacronym, cutsCapital, hstarts]

/-- Of a run of underscores the last one. -/
def squeezed : List Char → List Char
  | [] => []
  | c :: rest => if c = '_' ∧ rest.head? = some '_' then squeezed rest else c :: squeezed rest

/-- How many underscores a text begins with. -/
def leading (s : List Char) : Nat :=
  (Pattern.many (· == '_') s).head?.getD 0

theorem leading_line (s : List Char) : leading ('_' :: s) = leading s + 1 := by
  cases h : (Pattern.many (· == '_') s).head? <;> simp [leading, Pattern.many, h]

theorem squeezed_line (s : List Char) :
    squeezed ('_' :: s) = '_' :: squeezed (s.drop (leading s)) := by
  induction s with
  | nil => rfl
  | cons c s ih =>
      by_cases hc : c = '_'
      · subst hc
        rw [leading_line, List.drop_succ_cons, ← ih]
        simp [squeezed]
      · simp [leading, Pattern.many_cons_of_neg, hc, squeezed]

theorem squeezed_of_ne {c : Char} (hc : c ≠ '_') (s : List Char) :
    squeezed (c :: s) = c :: squeezed s := by
  simp [squeezed, hc]

theorem replaceAll_underscores (s : List Char) :
    replaceAll Pattern.underscores (fun _ => ['_']) s = squeezed s := by
  have hhead : ∀ c rest, (Pattern.underscores (c :: rest)).head? =
      if c = '_' then (Pattern.many (· == '_') rest).head?.map (· + 1) else none := by
    intro c rest
    by_cases hc : c = '_' <;> simp [Pattern.underscores, Pattern.seq, hc, Nat.add_comm]
  refine flatMap_scan rfl (fun c rest n h => ?_) (fun c rest h => ?_) 0 s
  · rw [hhead] at h
    by_cases hc : c = '_'
    · rw [if_pos hc, Option.map_eq_some_iff] at h
      obtain ⟨m, hmany, hm⟩ := h
      obtain rfl := Nat.succ.inj hm
      have hlength : leading rest = m := by simp [leading, hmany]
      rw [hc, squeezed_line, hlength]
      rfl
    · simp [hc] at h
  · by_cases hc : c = '_'
    · have hlength : leading rest = 0 := by
        cases hmany : (Pattern.many (· == '_') rest).head? with
        | none => simp [leading, hmany]
        | some n => exact absurd (by simp [hhead, hc, hmany]) (h n)
      rw [hc, squeezed_line, hlength]
      rfl
    · exact squeezed_of_ne hc rest

/-! ### The groups that are left -/

def startsAlphanum : List Char → Bool
  | c :: _ => c.isAlphanum
  | [] => false

/-- The runs of letters and digits. -/
def runs (s : List Char) : List (List Char) :=
  pieces (fun _ => startsAlphanum) s

/-- The runs of letters and digits with one underscore between them. -/
def joined (s : List Char) : List Char :=
  ['_'].intercalate (runs s)

theorem intercalate_cons_head (c : Char) (part : List Char) (parts : List (List Char)) :
    ['_'].intercalate ((c :: part) :: parts) = c :: ['_'].intercalate (part :: parts) := by
  cases parts with
  | nil => simp
  | cons next parts => simp [List.intercalate_cons_cons]

theorem isEmpty_joined (s : List Char) : (joined s).isEmpty = (runs s).isEmpty := by
  rw [joined]
  cases hsplit : runs s with
  | nil => rfl
  | cons run more =>
      have hrun : run ≠ [] := pieces_ne_nil _ (hsplit ▸ List.mem_cons_self)
      obtain ⟨c, rest, rfl⟩ := List.exists_cons_of_ne_nil hrun
      rw [intercalate_cons_head]
      rfl

theorem joined_cons {c : Char} (hc : c.isAlphanum = true) (rest : List Char) :
    joined (c :: rest) =
      c :: if startsAlphanum rest || (joined rest).isEmpty then joined rest
        else '_' :: joined rest := by
  rw [isEmpty_joined, joined, joined, runs, pieces, if_pos hc, ← runs]
  cases hstarts : startsAlphanum rest with
  | true =>
      cases rest with
      | nil => simp [startsAlphanum] at hstarts
      | cons d rest =>
          obtain ⟨piece, more, hpieces⟩ : ∃ piece more, runs (d :: rest) = (d :: piece) :: more :=
            pieces_cons hstarts rest
          simp [hpieces]
  | false =>
      cases hsplit : runs rest with
      | nil => simp
      | cons run more => simp [List.intercalate_cons_cons]

theorem joined_line (s : List Char) : joined ('_' :: s) = joined s :=
  rfl

theorem dropWhileEnd_cons {α : Type} (p : α → Bool) (a : α) (s : List α) :
    dropWhileEnd p (a :: s) =
      if p a && (dropWhileEnd p s).isEmpty then [] else a :: dropWhileEnd p s := by
  rw [dropWhileEnd, dropWhileEnd, List.reverse_cons, List.dropWhile_append, List.isEmpty_reverse]
  cases hrest : s.reverse.dropWhile p with
  | nil => cases hp : p a <;> simp [hp]
  | cons b rest => simp

/-- An underscore is left at the beginning if there was one and a letter or digit comes after it. -/
theorem dropWhileEnd_squeezed {s : List Char} (hs : ∀ c ∈ s, c.isAlphanum = true ∨ c = '_') :
    dropWhileEnd (· == '_') (squeezed s) =
      if s.head? == some '_' && !(joined s).isEmpty then '_' :: joined s else joined s := by
  induction s with
  | nil => rfl
  | cons c s ih =>
      obtain ⟨hc, hs⟩ := List.forall_mem_cons.mp hs
      have hrest := ih hs
      by_cases hline : c = '_'
      · subst hline
        rw [joined_line]
        by_cases hnext : s.head? = some '_'
        · have hsame : squeezed ('_' :: s) = squeezed s := by simp [squeezed, hnext]
          rw [hsame, hrest, hnext]
          rfl
        · have hsame : squeezed ('_' :: s) = '_' :: squeezed s := by simp [squeezed, hnext]
          have hempty : dropWhileEnd (· == '_') (squeezed s) = joined s := by simp [hrest, hnext]
          rw [hsame, dropWhileEnd_cons, hempty]
          cases h : joined s <;> simp
      · have halnum := hc.resolve_right hline
        rw [squeezed_of_ne hline, dropWhileEnd_cons, hrest, joined_cons halnum]
        cases s with
        | nil => simp [hline, startsAlphanum, show joined [] = [] from rfl]
        | cons d s =>
            by_cases hd : d = '_'
            · subst hd
              cases h : joined ('_' :: s) <;> simp [hline, startsAlphanum]
            · simp [hline, startsAlphanum, hd, (hs d List.mem_cons_self).resolve_right hd]

theorem ne_of_isAlphanum {c : Char} (hc : c.isAlphanum = true) : c ≠ '_' := by
  rintro rfl
  exact absurd hc (by decide)

theorem of_mem_head?_joined {s : List Char} {c : Char} (h : c ∈ (joined s).head?) :
    c.isAlphanum = true := by
  rw [joined] at h
  cases hsplit : runs s with
  | nil => simp [hsplit] at h
  | cons run more =>
      have hrun : run ∈ runs s := hsplit ▸ List.mem_cons_self
      obtain ⟨d, rest, rfl⟩ := List.exists_cons_of_ne_nil (pieces_ne_nil _ hrun)
      rw [hsplit, intercalate_cons_head] at h
      obtain rfl := Option.some.inj h
      exact isAlphanum_of_mem_pieces hrun d List.mem_cons_self

theorem trimmed_squeezed {s : List Char} (hs : ∀ c ∈ s, c.isAlphanum = true ∨ c = '_') :
    trimmed (squeezed s) = joined s := by
  have hsame : (joined s).dropWhile (· == '_') = joined s := by
    cases hjoined : joined s with
    | nil => rfl
    | cons c rest =>
        have hc : c.isAlphanum = true := of_mem_head?_joined (s := s) (by simp [hjoined])
        exact List.dropWhile_cons_of_neg (by simpa using ne_of_isAlphanum hc)
  rw [trimmed, dropWhileEnd_squeezed hs]
  split
  · exact hsame
  · exact hsame

theorem startsAlphanum_filled (cuts : Char → List Char → Bool) (s : List Char) :
    startsAlphanum (filled '_' (cutAfter cuts s)) = startsAlphanum s := by
  cases s with
  | nil => rfl
  | cons c s =>
      rw [cutAfter]
      by_cases hc : c.isAlphanum = true <;> split <;> simp [filled, startsAlphanum, hc]

/-- Cutting after a letter or digit separates the runs there. -/
theorem runs_filled_cutAfter (cuts : Char → List Char → Bool) (s : List Char) :
    runs (filled '_' (cutAfter cuts s)) =
      pieces (fun c rest => startsAlphanum rest && !cuts c rest) s := by
  induction s with
  | nil => rfl
  | cons c s ih =>
      have hstarts := startsAlphanum_filled cuts s
      rw [pieces, ← ih, cutAfter]
      by_cases hc : c.isAlphanum = true
      · cases hcuts : cuts c s with
        | true => simp [runs, filled_cons, pieces, startsAlphanum, hc]
        | false => simp [runs, filled_cons, pieces, hc, hstarts]
      · cases hcuts : cuts c s <;> simp [runs, filled_cons, pieces, hc]

theorem joinsSnake_eq (c : Char) (rest : List Char) :
    joinsSnake c rest =
      (startsAlphanum rest && !(cutsAcronym c rest || cutsCapital c rest)) := by
  cases rest with
  | nil => rfl
  | cons d rest =>
      rw [joinsSnake, startsAlphanum, cutsAcronym, cutsCapital, startsCapitalized, startsUpper]
      cases c.isUpper <;> cases d.isUpper <;> cases startsLower rest <;> simp

theorem map_toLower_intercalate (parts : List (List Char)) :
    (['_'].intercalate parts).map Char.toLower =
      ['_'].intercalate (parts.map (List.map Char.toLower)) := by
  induction parts with
  | nil => rfl
  | cons part parts ih =>
      cases parts with
      | nil => simp
      | cons next parts =>
          rw [List.intercalate_cons_cons, List.map_append, ih]
          simp [List.intercalate_cons_cons]

theorem snakeCase_eq_passes (name : String) :
    snakeCase name = String.ofList (snakePasses name.toList) := by
  have hcut : ∀ c ∈ filled '_' (cutWords name.toList), c.isAlphanum = true ∨ c = '_' := by
    intro c hc
    obtain ⟨d, -, rfl⟩ := List.mem_map.mp hc
    split <;> simp_all
  have hjoins : joinsSnake = fun c rest =>
      startsAlphanum rest && !(cutsAcronym c rest || cutsCapital c rest) :=
    funext fun c => funext fun rest => joinsSnake_eq c rest
  rw [snakePasses, replaceAll_underscores, trimmed_squeezed hcut, joined, cutWords_eq,
    runs_filled_cutAfter, ← hjoins, map_toLower_intercalate, snakeCase, snakeParts]

example : snakePasses " getHTTPResponse__2Go!".toList = "get_http_response_2_go".toList := by decide

/-! ### The normal form -/

/-- Groups of small letters and digits with one underscore between them, or no group and nothing. -/
def IsSnake (s : List Char) : Prop :=
  ∃ groups : List (List Char), s = ['_'].intercalate groups ∧
    ∀ group ∈ groups, group ≠ [] ∧ ∀ c ∈ group, c.isLower = true ∨ c.isDigit = true

theorem isSnake_snakeCase (name : String) : IsSnake (snakeCase name).toList := by
  refine ⟨snakeParts name.toList, by rw [snakeCase, String.toList_ofList], fun group hgroup => ?_⟩
  obtain ⟨piece, hpiece, rfl⟩ := List.mem_map.mp hgroup
  refine ⟨by simpa using pieces_ne_nil joinsSnake hpiece, List.forall_mem_map.mpr fun c hc => ?_⟩
  have halnum := isAlphanum_of_mem_pieces hpiece c hc
  obtain ⟨-, hdigit, halpha, hupper, -⟩ := toLower_facts halnum
  have hclass : c.toLower.isAlpha = true ∨ c.toLower.isDigit = true := by
    rw [halpha, hdigit]
    simpa [Char.isAlphanum] using halnum
  exact hclass.imp_left fun h => by simpa [hupper] using (letter_cases h).2

theorem small_facts {c : Char} (hc : c.isLower = true ∨ c.isDigit = true) :
    c.isAlphanum = true ∧ c.isUpper = false ∧ c.toLower = c := by
  have halnum : c.isAlphanum = true := by
    rcases hc with h | h <;> simp [Char.isAlphanum, isAlpha_eq, h]
  have hsmall := forall_isAlphanum (P := fun c => c.isLower = true ∨ c.isDigit = true →
    c.isUpper = false ∧ c.toLower = c) (by decide +kernel) halnum
  exact ⟨halnum, hsmall hc⟩

/-- A group is a part of its own, where no letter or digit is next. -/
theorem pieces_append {group rest : List Char} (hne : group ≠ [])
    (hgroup : ∀ c ∈ group, c.isLower = true ∨ c.isDigit = true) (hrest : startsAlphanum rest = false) :
    pieces joinsSnake (group ++ rest) = group :: pieces joinsSnake rest := by
  induction group with
  | nil => exact absurd rfl hne
  | cons c group ih =>
      obtain ⟨hc, hgroup⟩ := List.forall_mem_cons.mp hgroup
      rw [List.cons_append, pieces, if_pos (small_facts hc).1]
      cases group with
      | nil =>
          have hjoins : joinsSnake c rest = false := by
            rw [joinsSnake_eq, hrest, Bool.false_and]
          simp [hjoins]
      | cons d group =>
          obtain ⟨hd, hupper, -⟩ := small_facts (hgroup d List.mem_cons_self)
          have hjoins : joinsSnake c (d :: group ++ rest) = true := by simp [joinsSnake, hd, hupper]
          rw [if_pos hjoins, ih (List.cons_ne_nil _ _) hgroup]

theorem pieces_intercalate {groups : List (List Char)}
    (h : ∀ group ∈ groups, group ≠ [] ∧ ∀ c ∈ group, c.isLower = true ∨ c.isDigit = true) :
    pieces joinsSnake (['_'].intercalate groups) = groups := by
  induction groups with
  | nil => rfl
  | cons group groups ih =>
      obtain ⟨⟨hne, hgroup⟩, hrest⟩ := List.forall_mem_cons.mp h
      cases groups with
      | nil =>
          have hpieces : pieces joinsSnake (group ++ []) = group :: pieces joinsSnake [] :=
            pieces_append hne hgroup rfl
          simpa [pieces] using hpieces
      | cons next groups =>
          rw [List.intercalate_cons_cons, List.append_assoc, pieces_append hne hgroup rfl]
          exact congrArg (group :: ·) (ih hrest)

theorem IsSnake.snakeCase_eq {name : String} (h : IsSnake name.toList) : snakeCase name = name := by
  obtain ⟨groups, hname, hgroups⟩ := h
  have hgroup : ∀ group ∈ groups, group.map Char.toLower = id group := by
    intro group hmem
    have hsmall : ∀ c ∈ group, c.toLower = id c :=
      fun c hc => (small_facts ((hgroups group hmem).2 c hc)).2.2
    rw [List.map_congr_left hsmall, List.map_id, id]
  have hsame : groups.map (List.map Char.toLower) = groups := by
    rw [List.map_congr_left hgroup, List.map_id]
  rw [snakeCase, snakeParts, hname, pieces_intercalate hgroups, hsame, ← hname, String.ofList_toList]

theorem snakeCase_eq_empty_iff (name : String) :
    snakeCase name = "" ↔ ∀ c ∈ name.toList, c.isAlphanum = false := by
  have hletters : letters name.toList = [] ↔ ∀ c ∈ name.toList, c.isAlphanum = false := by
    simp [letters]
  rw [← hletters]
  constructor
  · intro h
    rw [← filter_snakeCase, h]
    rfl
  · intro h
    have hnone : snakeParts name.toList = [] := by
      refine List.eq_nil_iff_forall_not_mem.mpr fun part hpart => ?_
      rw [← flatten_map_pieces joinsSnake, List.flatten_eq_nil_iff] at h
      obtain ⟨piece, hpiece, rfl⟩ := List.mem_map.mp hpart
      exact pieces_ne_nil joinsSnake hpiece (List.map_eq_nil_iff.mp (h _ hpart))
    rw [snakeCase, hnone]
    rfl

/-- Snake case is a normal form, and the passes over the text lead to it: groups of small letters and
digits, with one underscore between them. Nothing is left only of a name without ASCII letters and
digits, and a name in snake case stays as it is. -/
theorem snakeCase_normal (name : String) :
    snakeCase name = String.ofList (snakePasses name.toList) ∧
      IsSnake (snakeCase name).toList ∧
      (snakeCase name = "" ↔ ∀ c ∈ name.toList, c.isAlphanum = false) ∧
      snakeCase (snakeCase name) = snakeCase name :=
  ⟨snakeCase_eq_passes name, isSnake_snakeCase name, snakeCase_eq_empty_iff name,
    (isSnake_snakeCase name).snakeCase_eq⟩

end DartScaffold.Text
