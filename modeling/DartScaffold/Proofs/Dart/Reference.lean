import DartScaffold.Disk.Location
import DartScaffold.Proofs.Dart.Import
import DartScaffold.Proofs.Dart.Line

/-!
What a generated file refers to: the relative locations in its directives, the files that they mean when
they are read from the directory of the file they stand in, and the names in its code.
-/

namespace DartScaffold.Dart

open Aggregate (after? afterDirective? afterLocation? isImportLine isQuote)
open Disk (Location)

/-! ### References -/

/-- The quoted location of a directive. -/
def reference? (line : String) : Option String :=
  if isImportLine line then
    some (String.ofList (((line.toList.dropWhile (!isQuote ·)).drop 1).takeWhile (!isQuote ·)))
  else none

/-- A location without a scheme. -/
def isRelative (reference : String) : Bool :=
  !reference.toList.contains ':'

/-- The relative locations in the directives among the lines. -/
def references (lines : List String) : List String :=
  (lines.filterMap reference?).filter isRelative

theorem references_append (lines more : List String) :
    references (lines ++ more) = references lines ++ references more := by
  simp [references, List.filterMap_append, List.filter_append]

theorem references_cons (line : String) (lines : List String) :
    references (line :: lines) = references [line] ++ references lines :=
  references_append [line] lines

theorem quote_mem_of_isImportLine {line : String} (h : isImportLine line = true) :
    ∃ c ∈ line.toList, isQuote c = true := by
  have hafter : ∀ {head s rest : List Char}, after? head s = some rest → ∀ c ∈ rest, c ∈ s := by
    intro head s rest hafter c hc
    rw [Aggregate.after?_eq_some_iff.mp hafter]
    exact List.mem_append_right head hc
  rw [isImportLine] at h
  cases hdirective : afterDirective? (line.toList.dropWhile Text.isBlank) with
  | none => simp [hdirective] at h
  | some s =>
      have hs : ∀ c ∈ s, c ∈ line.toList := by
        intro c hc
        refine (List.dropWhile_sublist Text.isBlank).subset ?_
        rw [afterDirective?, Option.or_eq_some_iff, Option.or_eq_some_iff] at hdirective
        rcases hdirective with hword | ⟨-, hword | ⟨-, hword⟩⟩ <;> exact hafter hword c hc
      rw [hdirective] at h
      cases s with
      | nil => simp at h
      | cons c s =>
          obtain ⟨-, hlocation⟩ := Bool.and_eq_true_iff.mp h
          cases hrest : (c :: s).dropWhile Text.isBlank with
          | nil => simp [hrest, afterLocation?] at hlocation
          | cons d rest =>
              have hd : d ∈ (c :: s).dropWhile Text.isBlank := hrest ▸ List.mem_cons_self
              refine ⟨d, hs d ((List.dropWhile_sublist _).subset hd), ?_⟩
              by_contra hquote
              simp [hrest, afterLocation?, hquote] at hlocation

theorem reference?_of_isClear {line : String} (h : IsClear line) : reference? line = none := by
  rw [reference?, if_neg]
  intro himport
  obtain ⟨c, hc, hquote⟩ := quote_mem_of_isImportLine himport
  exact absurd hquote (by simp [(h c hc).2.2.2])

theorem references_of_isClear {lines : List String} (h : ∀ line ∈ lines, IsClear line) :
    references lines = [] := by
  have hnone : lines.filterMap reference? = [] :=
    List.filterMap_eq_nil_iff.mpr fun line hline => reference?_of_isClear (h line hline)
  rw [references, hnone, List.filter_nil]

theorem reference?_importLine {path naming : String} (hpath : IsPath path) (hne : path ≠ "")
    (hnaming : IsNaming naming) : reference? (importLine path naming) = some path := by
  have hword : ∀ c ∈ "import".toList ++ [' '], (!isQuote c) = true :=
    List.all_eq_true.mp (by decide)
  have hquote : ∀ c ∈ path.toList, (!isQuote c) = true :=
    fun c hc => by simp [(hpath.dark c hc).2]
  have hline : (importLine path naming).toList = ("import".toList ++ [' ']) ++
      ('\'' :: (path.toList ++ '\'' :: (naming.toList ++ [';']))) := by
    rw [toList_importLine]
    simp
  rw [reference?, if_pos (isImportLine_importLine hpath hne hnaming), hline,
    Text.dropWhile_append_stop hword (by simp [isQuote]), List.drop_one, List.tail_cons,
    Text.takeWhile_append_stop hquote (by simp [isQuote]), String.ofList_toList]

theorem isRelative_append (reference more : String) :
    isRelative (reference ++ more) = (isRelative reference && isRelative more) := by
  simp [isRelative]

theorem IsPlain.isRelative {name : String} (h : IsPlain name) : isRelative name = true := by
  have hcolon : ':' ∉ name.toList := h.not_mem (by decide) (by decide)
  simpa [Dart.isRelative] using hcolon

theorem references_importLine {path naming : String} (hpath : IsPath path)
    (hrelative : isRelative path = true) (hne : path ≠ "") (hnaming : IsNaming naming) :
    references [importLine path naming] = [path] := by
  simp [references, reference?_importLine hpath hne hnaming, hrelative]

theorem isOneLine_importLine {path : String} (h : IsPath path) : IsOneLine (importLine path "") := by
  have hpath : IsOneLine path := by
    intro c hc
    have hblank := (h.dark c hc).1
    refine ⟨?_, ?_⟩ <;> rintro rfl <;> exact absurd hblank (by decide)
  have hstart := isOneLine_append.mpr ⟨show IsOneLine "import '" by decide, hpath⟩
  have hquoted := isOneLine_append.mpr ⟨hstart, show IsOneLine "'" by decide⟩
  exact isOneLine_append.mpr ⟨isOneLine_append.mpr ⟨hquoted, by decide⟩, by decide⟩

/-! ### Where references lead -/

/-- Goes from one directory to another, step by step and never above the outermost. -/
def walk? : List String → List String → Option (List String)
  | here, [] => some here
  | here, step :: steps =>
    if step = ".." then
      if here = [] then none else walk? here.dropLast steps
    else walk? (here ++ [step]) steps

/-- The file that `reference` means in `file`, if it is in the directory that `file` is seen from. -/
def resolve? (file reference : String) : Option (List String) :=
  walk? (Location.ofString file).parts.dropLast (Location.ofString reference).parts

theorem walk?_concat {here steps there : List String} {name : String} (hname : name ≠ "..")
    (h : walk? here steps = some there) : walk? here (steps ++ [name]) = some (there ++ [name]) := by
  induction steps generalizing here with
  | nil =>
      obtain rfl := Option.some.inj h
      simp [walk?, hname]
  | cons step steps ih =>
      rw [List.cons_append, walk?]
      rw [walk?] at h
      by_cases hup : step = ".."
      · by_cases hhere : here = []
        · simp [hup, hhere] at h
        · rw [if_pos hup, if_neg hhere] at h ⊢
          exact ih h
      · rw [if_neg hup] at h ⊢
        exact ih h

/-- The name of a Dart file. -/
structure IsFileName (name : String) : Prop where
  plain : IsPlain name
  last : name.toList.getLast? = some 't'

instance (name : String) : Decidable (IsFileName name) :=
  decidable_of_iff (IsPlain name ∧ name.toList.getLast? = some 't')
    ⟨fun ⟨plain, last⟩ => ⟨plain, last⟩, fun h => ⟨h.plain, h.last⟩⟩

theorem IsPlain.isFileName {stem ending : String} (h : IsPlain stem) (hending : IsFileName ending) :
    IsFileName (stem ++ ending) := by
  refine ⟨h.append hending.plain, ?_⟩
  rw [String.toList_append, List.getLast?_append, hending.last]
  rfl

theorem IsFileName.ne {name other : String} (h : IsFileName name)
    (hother : other.toList.getLast? ≠ some 't') : name ≠ other :=
  fun heq => hother (heq ▸ h.last)

/-- A text that a name is put after. -/
def IsDirectory (directory : String) : Prop :=
  directory = "" ∨ directory.toList.getLast? = some '/'

instance (directory : String) : Decidable (IsDirectory directory) :=
  inferInstanceAs (Decidable (directory = "" ∨ directory.toList.getLast? = some '/'))

theorem parts_ofString_append {directory name : String} (hdirectory : IsDirectory directory)
    (hname : IsFileName name) :
    (Location.ofString (directory ++ name)).parts =
      (Location.ofString directory).parts ++ [name] := by
  have hslash : '/' ∉ name.toList := hname.plain.not_mem (by decide) (by decide)
  have hsingle : name.toList.splitOn '/' = [name.toList] := List.splitOn_eq_singleton hslash
  have hempty : name ≠ "" := hname.ne (by decide)
  have hdot : name ≠ "." := hname.ne (by decide)
  simp only [Location.ofString, Text.splitOnChar_eq_splitOn]
  rcases hdirectory with rfl | hlast
  · rw [String.empty_append, hsingle]
    simp [hempty, hdot]
  · obtain ⟨front, hfront⟩ := List.getLast?_eq_some_iff.mp hlast
    rw [String.toList_append, hfront, List.append_assoc, List.singleton_append,
      List.splitOn_append_cons_self, List.splitOn_append_cons_self, hsingle]
    simp [hempty, hdot]

/-- A reference to a file leads where its directory leads. -/
theorem resolve?_eq {here file there name directory : String} (hhere : IsDirectory here)
    (hfile : IsFileName file) (hthere : IsDirectory there) (hname : IsFileName name)
    (hdirectory : IsDirectory directory)
    (h : walk? (Location.ofString here).parts (Location.ofString there).parts =
      some (Location.ofString directory).parts) :
    resolve? (here ++ file) (there ++ name) =
      some (Location.ofString (directory ++ name)).parts := by
  rw [resolve?, parts_ofString_append hhere hfile, parts_ofString_append hthere hname,
    parts_ofString_append hdirectory hname, List.dropLast_concat]
  exact walk?_concat (hname.ne (by decide)) h

/-- A reference to a file by its stem and the end of its name. -/
theorem resolve?_named {here stem ending there stem' ending' directory : String}
    (hstem : IsPlain stem) (hstem' : IsPlain stem') (hending : IsFileName ending ∧ IsFileName ending')
    (hdirectory : IsDirectory here ∧ IsDirectory there ∧ IsDirectory directory)
    (h : walk? (Location.ofString here).parts (Location.ofString there).parts =
      some (Location.ofString directory).parts) :
    resolve? (here ++ stem ++ ending) (there ++ stem' ++ ending') =
      some (Location.ofString (directory ++ stem' ++ ending')).parts := by
  simp only [String.append_assoc]
  exact resolve?_eq hdirectory.1 (hstem.isFileName hending.1) hdirectory.2.1
    (hstem'.isFileName hending.2) hdirectory.2.2 h

/-- The references in the lines of `file` lead to these files, one to each. -/
def LeadTo (file : String) (lines paths : List String) : Prop :=
  (references lines).map (resolve? file) = paths.map fun path => some (Location.ofString path).parts

section LeadTo

variable {file path ref : String} {lines paths : List String}

theorem LeadTo.exists_path (h : LeadTo file lines paths) (href : ref ∈ references lines) :
    ∃ path ∈ paths, resolve? file ref = some (Location.ofString path).parts := by
  have hmem := List.mem_map_of_mem (f := resolve? file) href
  rw [h] at hmem
  obtain ⟨path, hpath, hparts⟩ := List.mem_map.mp hmem
  exact ⟨path, hpath, hparts.symm⟩

theorem LeadTo.exists_reference (h : LeadTo file lines paths) (hpath : path ∈ paths) :
    ∃ ref ∈ references lines, resolve? file ref = some (Location.ofString path).parts := by
  have hmem := List.mem_map_of_mem (f := fun path => some (Location.ofString path).parts) hpath
  rw [← h] at hmem
  exact List.mem_map.mp hmem

end LeadTo

/-! ### Names in code -/

/-- A character of an identifier. -/
def isNameChar (c : Char) : Bool :=
  c.isAlphanum || c == '_' || c == '$'

/-- A name can stand after the text. -/
def isBefore (text : String) : Bool :=
  text.toList.getLast?.all (!isNameChar ·)

/-- A name can stand before the text. -/
def isAfter (text : String) : Bool :=
  text.toList.head?.all (!isNameChar ·)

theorem isBefore_append {text more : String} (h : isBefore text = true) (hmore : isBefore more = true) :
    isBefore (text ++ more) = true := by
  rw [isBefore, String.toList_append, List.getLast?_append]
  rw [isBefore] at h hmore
  cases hlast : more.toList.getLast? with
  | none => simpa using h
  | some c => simpa [hlast] using hmore

theorem isAfter_append {text more : String} (h : isAfter text = true) (hmore : isAfter more = true) :
    isAfter (text ++ more) = true := by
  rw [isAfter, String.toList_append, List.head?_append]
  rw [isAfter] at h hmore
  cases hfirst : text.toList.head? with
  | none => simpa using hmore
  | some c => simpa [hfirst] using h

/-- The name stands in the text, and is not a piece of a longer one there. -/
def Mentions (text name : String) : Prop :=
  ∃ before after, text = before ++ name ++ after ∧ isBefore before = true ∧ isAfter after = true

theorem mentions_self (name : String) : Mentions name name :=
  ⟨"", "", by simp, rfl, rfl⟩

theorem Mentions.between {text name before after : String} (h : Mentions text name)
    (hbefore : isBefore before = true) (hafter : isAfter after = true) :
    Mentions (before ++ text ++ after) name := by
  obtain ⟨front, back, rfl, hfront, hback⟩ := h
  exact ⟨before ++ front, back ++ after, by simp [String.append_assoc],
    isBefore_append hbefore hfront, isAfter_append hback hafter⟩

theorem Mentions.joinLines {lines : List String} {line name : String} (h : Mentions line name)
    (hline : line ∈ lines) : Mentions (Text.joinLines lines) name := by
  have hbefore : ∀ text : String, isBefore (text ++ "\n") = true := by
    simp [isBefore, isNameChar]
  have hafter : ∀ text : String, isAfter ("\n" ++ text) = true := by
    simp [isAfter, isNameChar]
  induction lines with
  | nil => simp at hline
  | cons first rest ih =>
      by_cases hrest : rest = []
      · subst hrest
        obtain rfl := List.mem_singleton.mp hline
        simpa [Text.joinLines] using h
      · rw [Text.joinLines_cons hrest]
        rcases List.mem_cons.mp hline with rfl | hline
        · have hfirst : Mentions ("" ++ line ++ ("\n" ++ Text.joinLines rest)) name :=
            h.between rfl (hafter _)
          simpa [String.append_assoc] using hfirst
        · have hlater : Mentions (first ++ "\n" ++ Text.joinLines rest ++ "") name :=
            (ih hline).between (hbefore first) rfl
          simpa using hlater

end DartScaffold.Dart
