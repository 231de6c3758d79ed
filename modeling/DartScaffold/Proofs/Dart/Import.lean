import DartScaffold.Proofs.Aggregate.ImportLine
import DartScaffold.Proofs.Dart.Field

/-!
Imports in generated code: a path between single quotes, and maybe the name that the library goes by.
Such a line is a directive, and it is in its normal form already.
-/

namespace DartScaffold

open Aggregate (afterDirective? afterLocation? endsDirective isImportLine isQuote normalizeImport)
open Text (Spaced isBlank)

theorem Text.Spaced.append_dark {stop s t : List Char} (hs : ∀ c ∈ s, isBlank c = false)
    (ht : Spaced stop t) : Spaced stop (s ++ t) := by
  induction s with
  | nil => exact ht
  | cons c s ih =>
      obtain ⟨hc, hs⟩ := List.forall_mem_cons.mp hs
      exact .dark hc (ih hs)

theorem Text.isBlank_of_isAlphanum {c : Char} (h : c.isAlphanum = true) : isBlank c = false := by
  have hascii : ∀ n < 128, (Char.ofNat n).isAlphanum = true → isBlank (Char.ofNat n) = false := by
    decide +kernel
  have hblank := hascii c.toNat (ascii_of_isAlphanum h)
  rw [Char.ofNat_toNat] at hblank
  exact hblank h

namespace Dart

theorem IsPlain.isBlank_eq_false {name : String} (h : IsPlain name) :
    ∀ c ∈ name.toList, isBlank c = false := by
  intro c hc
  rcases h c hc with halnum | rfl | rfl
  · exact Text.isBlank_of_isAlphanum halnum
  · decide
  · decide

/-- Plain names, with slashes between them or a colon after the first. -/
def IsPath (path : String) : Prop :=
  ∀ c ∈ path.toList, (c.isAlphanum = true ∨ c = '_' ∨ c = '.') ∨ c = '/' ∨ c = ':'

instance (path : String) : Decidable (IsPath path) :=
  decidable_of_iff (path.toList.all (fun c =>
    (c.isAlphanum || c == '_' || c == '.') || c == '/' || c == ':') = true) (by simp [IsPath, or_assoc])

theorem IsPlain.isPath {name : String} (h : IsPlain name) : IsPath name :=
  fun c hc => .inl (h c hc)

theorem IsPath.append {path more : String} (h : IsPath path) (hmore : IsPath more) :
    IsPath (path ++ more) := by
  intro c hc
  rw [String.toList_append] at hc
  exact (List.mem_append.mp hc).elim (h c) (hmore c)

theorem IsPath.dark {path : String} (h : IsPath path) :
    ∀ c ∈ path.toList, isBlank c = false ∧ isQuote c = false := by
  intro c hc
  rcases h c hc with (halnum | rfl | rfl) | rfl | rfl
  · refine ⟨Text.isBlank_of_isAlphanum halnum, ?_⟩
    have hne : ∀ quote, quote.isAlphanum = false → c ≠ quote := by
      rintro _ hquote rfl
      exact Bool.noConfusion (halnum.symm.trans hquote)
    simp [isQuote, hne '\'' (by decide), hne '"' (by decide)]
  all_goals decide

/-- What stands between the path and the semicolon. -/
inductive IsNaming : String → Prop where
  | none : IsNaming ""
  | name {name : String} (h : IsPlain name) (hne : name ≠ "") : IsNaming (" as " ++ name)

def importLine (path naming : String) : String :=
  "import '" ++ path ++ "'" ++ naming ++ ";"

section Import

variable {path naming : String}

theorem toList_importLine (path naming : String) : (importLine path naming).toList =
    "import".toList ++ ' ' :: '\'' :: (path.toList ++ '\'' :: (naming.toList ++ [';'])) := by
  simp [importLine]

theorem IsNaming.semicolon_not_mem (h : IsNaming naming) : ';' ∉ naming.toList := by
  cases h with
  | none => simp
  | name h _ =>
      have hname := h.not_mem (c := ';') (by decide) (by decide)
      simp [hname]

theorem IsNaming.spaced (h : IsNaming naming) : Spaced [';'] (naming.toList ++ [';']) := by
  have hend : Spaced [';'] [';'] := .dark (by decide) .nil
  cases h with
  | none => exact hend
  | @name name h hne =>
      have hnamed : Spaced [';'] (name.toList ++ [';']) := Spaced.append_dark h.isBlank_eq_false hend
      have hsemicolon : ';' ∉ name.toList := h.not_mem (by decide) (by decide)
      -- the space before the name is a single one, and no semicolon follows it
      have hafter : Spaced [';'] (' ' :: (name.toList ++ [';'])) := by
        cases hchars : name.toList with
        | nil => exact absurd (String.toList_eq_nil_iff.mp hchars) hne
        | cons c rest =>
            rw [hchars] at hnamed hsemicolon
            have hc : isBlank c = false := h.isBlank_eq_false c (hchars ▸ List.mem_cons_self)
            have hstop : c ∉ [';'] := fun hmem =>
              hsemicolon (List.mem_singleton.mp hmem ▸ List.mem_cons_self)
            exact .space hc hstop hnamed
      rw [String.toList_append, List.append_assoc]
      exact .space (by decide) (by decide) (.dark (by decide) (.dark (by decide) hafter))

theorem IsNaming.quote_not_mem (h : IsNaming naming) : '"' ∉ naming.toList := by
  cases h with
  | none => simp
  | name h _ =>
      have hname := h.not_mem (c := '"') (by decide) (by decide)
      simp [hname]

theorem isImportLine_importLine (hpath : IsPath path) (hne : path ≠ "") (hnaming : IsNaming naming) :
    isImportLine (importLine path naming) = true := by
  have hword : afterDirective? (importLine path naming).toList =
      some (' ' :: '\'' :: (path.toList ++ '\'' :: (naming.toList ++ [';']))) := by
    rw [afterDirective?, Aggregate.after?_eq_some_iff.mpr (toList_importLine path naming),
      Option.some_or]
  have hstart : (importLine path naming).toList.dropWhile isBlank =
      (importLine path naming).toList := by
    rw [toList_importLine]
    rfl
  have htake : (path.toList ++ '\'' :: (naming.toList ++ [';'])).takeWhile (fun c => !isQuote c) =
      path.toList := by
    refine Text.takeWhile_append_stop (fun c hc => by simp [(hpath.dark c hc).2]) ?_
    intro c hc
    obtain rfl : '\'' = c := by simpa using hc
    decide
  have hafter : afterLocation? ('\'' :: (path.toList ++ '\'' :: (naming.toList ++ [';']))) =
      some (naming.toList ++ [';']) := by
    have hquote : isQuote '\'' = true := by decide
    rw [afterLocation?, if_pos hquote]
    dsimp only
    rw [htake, List.drop_left]
    cases hchars : path.toList with
    | nil => exact absurd (String.toList_eq_nil_iff.mp hchars) hne
    | cons c rest => rfl
  have hend : endsDirective (naming.toList ++ [';']) = true := by
    have hsemicolon := hnaming.semicolon_not_mem
    rw [endsDirective, Text.dropWhile_append_stop]
    · rfl
    · intro c hc
      have hne : c ≠ ';' := fun heq => hsemicolon (heq ▸ hc)
      simpa using hne
    · intro c hc
      obtain rfl : ';' = c := by simpa using hc
      decide
  have hblank : isBlank ' ' = true := by decide
  have hskip : (' ' :: '\'' :: (path.toList ++ '\'' :: (naming.toList ++ [';']))).dropWhile isBlank =
      '\'' :: (path.toList ++ '\'' :: (naming.toList ++ [';'])) := rfl
  rw [isImportLine, hstart, hword]
  dsimp only
  rw [hskip, hafter, hblank]
  exact hend

theorem isNormalImport_importLine (hpath : IsPath path) (hnaming : IsNaming naming) :
    Aggregate.IsNormalImport (importLine path naming).toList := by
  have hquoted : Spaced [';'] (path.toList ++ '\'' :: (naming.toList ++ [';'])) :=
    Spaced.append_dark (fun c hc => (hpath.dark c hc).1) (.dark (by decide) hnaming.spaced)
  rw [toList_importLine]
  refine ⟨?_, ?_, ?_⟩
  · intro c hc
    obtain rfl : 'i' = c := by simpa using hc
    decide
  · have hword : IsPlain "import" := by decide
    exact Spaced.append_dark hword.isBlank_eq_false (.space (by decide) (by decide) (.dark (by decide) hquoted))
  · have hp : '"' ∉ path.toList := fun h => absurd (hpath.dark _ h).2 (by decide)
    simp [hp, hnaming.quote_not_mem]

/-- An import of generated code is a directive as it stands. -/
theorem isImportLine_normalizeImport_importLine (hpath : IsPath path) (hne : path ≠ "")
    (hnaming : IsNaming naming) : isImportLine (normalizeImport (importLine path naming)) = true := by
  rw [Aggregate.normalizeImport_of_isNormalImport (isNormalImport_importLine hpath hnaming)]
  exact isImportLine_importLine hpath hne hnaming

end Import

end Dart

end DartScaffold
