import DartScaffold.Proofs.Aggregate.Removal
import DartScaffold.Proofs.Text.SnakeCase
import DartScaffold.Proofs.Text.Span
import DartScaffold.Validation.Entry

/-!
Which imports pruning takes. It knows the imports of a stale API by the name of the file alone, and only
between single quotes, so a model file's import stays exactly when no stale API has that file's stem in
snake case. The stem does not tell an API that is kept from a stale one that is spelled differently.
-/

namespace DartScaffold

open Text (snakeCase)

/-! ### The last of some characters -/

theorem Text.append_cons_inj_of_last {α : Type} {p : α → Bool} {x y s t : List α} {c c' : α}
    (hc : p c = false) (hc' : p c' = false) (hs : ∀ a ∈ s, p a = true) (ht : ∀ a ∈ t, p a = true)
    (h : x ++ c :: s = y ++ c' :: t) : s = t := by
  have hlast : ∀ {x s : List α} {c : α}, p c = false → (∀ a ∈ s, p a = true) →
      (x ++ c :: s).reverse.takeWhile p = s.reverse := by
    intro x s c hc hs
    rw [List.reverse_append, List.reverse_cons, List.append_assoc]
    exact takeWhile_append_stop (by simpa using hs) (by simp [hc])
  have hreverse : s.reverse = t.reverse := by rw [← hlast hc hs, h, hlast hc' ht]
  exact List.reverse_injective hreverse

namespace Aggregate.Document

/-! ### All imports -/

theorem mem_dropApi_directive {api line : String} {afterBlock : Bool} {d : Document} :
    .directive line ∈ dropApi api afterBlock d ↔ .directive line ∈ d ∧ ¬ NamesModel api line := by
  rw [← importsModelOf_iff, Bool.not_eq_true]
  induction d generalizing afterBlock with
  | nil => simp [dropApi]
  | cons node d ih =>
      cases node with
      | directive other =>
          by_cases hother : importsModelOf api other = true
          · by_cases heq : line = other
            · subst heq
              simp [dropApi, Node.isBlockOf, hother, ih]
            · simp [dropApi, Node.isBlockOf, hother, ih, heq]
          · by_cases heq : line = other
            · subst heq
              simp [dropApi, Node.isBlockOf, hother]
            · simp [dropApi, Node.isBlockOf, hother, ih, heq]
      | text _ | anchor _ _ _ | block _ _ _ _ =>
          rw [dropApi.eq_def]
          dsimp only
          split <;> [skip; split] <;> simp [ih]

theorem mem_prune_directive {d : Document} {keep : List String} {line : String} :
    .directive line ∈ d.prune keep ↔
      .directive line ∈ d ∧ ∀ api ∈ d.stale keep, ¬ NamesModel api line := by
  rw [prune]
  generalize d.stale keep = stale
  induction stale generalizing d with
  | nil => simp
  | cons api stale ih =>
      rw [List.foldl_cons, ih, removeApi, mem_dropApi_directive, List.forall_mem_cons, and_assoc]

/-! ### Imports of one file -/

def isNameChar (c : Char) : Bool := c != '/' && c != '\''

/-- A text that can stand between two slashes of a location. -/
def IsName (name : String) : Prop :=
  ∀ c ∈ name.toList, isNameChar c = true

instance (name : String) : Decidable (IsName name) :=
  decidable_of_iff (name.toList.all isNameChar = true) List.all_eq_true

/-- The line has one location in quotes, and `file` is its last component. -/
structure Locates (quote : Char) (file line : String) : Prop where
  parts : ∃ before directory after : List Char,
    line.toList = before ++ quote :: (directory ++ file.toList ++ quote :: after) ∧
      (directory = [] ∨ directory.getLast? = some '/') ∧ (∀ c ∈ before, isNameChar c = true) ∧
      '\'' ∉ directory ∧ '\'' ∉ after
  name : IsName file

def modelFile (stem kind : String) : String := stem ++ "_" ++ kind ++ ".dart"

def modelKinds : List String := ["body", "response", "entity", "extra"]

theorem isName_modelFile {stem kind : String} (hstem : IsName stem) (hkind : kind ∈ modelKinds) :
    IsName (modelFile stem kind) := by
  have hkinds : modelKinds.all
      (fun kind => ("_" ++ kind ++ ".dart").toList.all isNameChar) = true := by
    decide
  have htail := List.all_eq_true.mp (List.all_eq_true.mp hkinds kind hkind)
  have hfile : modelFile stem kind = stem ++ ("_" ++ kind ++ ".dart") := by
    simp only [modelFile, String.append_assoc]
  intro c hc
  rw [hfile, String.toList_append] at hc
  exact (List.mem_append.mp hc).elim (hstem c) (htail c)

theorem isName_snakeCase (name : String) : IsName (snakeCase name) := by
  intro c hc
  have hne : ∀ other : Char, other.isAlphanum = false → other ≠ '_' → c ≠ other := by
    rintro _ halnum hne rfl
    exact (Text.of_mem_snakeCase hc).elim (by simp [halnum]) hne
  simp [isNameChar, hne '/' (by decide) (by decide), hne '\'' (by decide) (by decide)]

theorem modelFile_inj {stem stem' kind kind' : String} (hkind : kind ∈ modelKinds)
    (hkind' : kind' ∈ modelKinds) (h : modelFile stem kind = modelFile stem' kind') :
    stem = stem' := by
  have hkinds : modelKinds.all (fun kind => kind.toList.all (· != '_')) = true := by decide
  have hletters : ∀ kind ∈ modelKinds, ∀ c ∈ kind.toList, (c != '_') = true :=
    fun kind hkind => List.all_eq_true.mp (List.all_eq_true.mp hkinds kind hkind)
  have hnames : stem.toList ++ '_' :: kind.toList = stem'.toList ++ '_' :: kind'.toList := by
    have hlists := congrArg String.toList (String.append_left_inj _ |>.mp h)
    simpa using hlists
  have heq := Text.append_cons_inj_of_last (by decide) (by decide) (hletters kind hkind)
    (hletters kind' hkind') hnames
  rw [heq] at hnames
  exact String.toList_injective (List.append_cancel_right hnames)

/-- A line that locates a file has no other name between a slash or a quote and a quote. -/
theorem Locates.eq_of_infix {file line name start : String} (h : Locates '\'' file line)
    (hname : IsName name) (hstart : start ∈ ["/", "'"])
    (hwithin : (start ++ name ++ "'").toList <:+: line.toList) : name = file := by
  obtain ⟨c, hc, hstart⟩ : ∃ c, isNameChar c = false ∧ start.toList = [c] := by
    simp only [List.mem_cons, List.not_mem_nil, or_false] at hstart
    rcases hstart with rfl | rfl
    · exact ⟨'/', by decide, rfl⟩
    · exact ⟨'\'', by decide, rfl⟩
  obtain ⟨before, directory, after, hline, hdirectory, hbefore, hquote, hafter⟩ := h.parts
  have hquotes : '\'' ∉ directory ++ file.toList := by
    refine List.not_mem_append hquote fun hmem => ?_
    simpa [isNameChar] using h.name _ hmem
  obtain ⟨x, y, hxy⟩ := hwithin
  rw [hline, String.toList_append, String.toList_append, hstart] at hxy
  -- the character in front of the name is the opening quote or a later one
  obtain ⟨x, hxy⟩ : ∃ x, x ++ c :: name.toList ++ '\'' :: y =
      '\'' :: (directory ++ file.toList) ++ '\'' :: after := by
    have hsplit : x ++ (c :: (name.toList ++ '\'' :: y)) =
        before ++ ('\'' :: (directory ++ file.toList ++ '\'' :: after)) := by simpa using hxy
    rcases List.append_eq_append_iff.mp hsplit with ⟨z, hz, hrest⟩ | ⟨z, hz, hrest⟩
    · cases z with
      | nil => exact ⟨[], by simpa using hrest⟩
      | cons d z =>
          obtain rfl : c = d := (List.cons.inj hrest).1
          have hmem : c ∈ before := hz ▸ by simp
          exact absurd (hbefore c hmem) (by simp [hc])
    · exact ⟨z, by simpa using hrest.symm⟩
  -- the quote behind the name is the closing one
  have hfront : x ++ c :: name.toList = '\'' :: (directory ++ file.toList) := by
    rcases List.append_eq_append_iff.mp hxy with ⟨z, hz, hrest⟩ | ⟨z, hz, hrest⟩
    · cases z with
      | nil => simpa using hz.symm
      | cons d z =>
          obtain rfl : '\'' = d := (List.cons.inj hrest).1
          have hmem : '\'' ∈ directory ++ file.toList := by
            cases x with
            | nil => exact (List.cons.inj hz).2 ▸ by simp
            | cons e x => exact (List.cons.inj hz).2 ▸ by simp
          exact absurd hmem hquotes
    · cases z with
      | nil => simpa using hz
      | cons d z =>
          have hmem : '\'' ∈ after := (List.cons.inj hrest).2 ▸ by simp
          exact absurd hmem hafter
  obtain ⟨front, d, hd, hsplit⟩ : ∃ front d, isNameChar d = false ∧
      '\'' :: (directory ++ file.toList) = front ++ d :: file.toList := by
    rcases hdirectory with rfl | hlast
    · exact ⟨[], '\'', by decide, rfl⟩
    · obtain ⟨front, rfl⟩ := List.getLast?_eq_some_iff.mp hlast
      exact ⟨'\'' :: front, '/', by decide, by simp⟩
  rw [hsplit] at hfront
  exact String.toList_injective
    (Text.append_cons_inj_of_last hc hd (fun a ha => hname a ha) (fun a ha => h.name a ha) hfront)

theorem Locates.infix {file line : String} (h : Locates '\'' file line) :
    ∃ start ∈ ["/", "'"], (start ++ file ++ "'").toList <:+: line.toList := by
  obtain ⟨before, directory, after, hline, hdirectory, -, -, -⟩ := h.parts
  rcases hdirectory with rfl | hlast
  · exact ⟨"'", by simp, before, after, by simp [hline]⟩
  · obtain ⟨front, rfl⟩ := List.getLast?_eq_some_iff.mp hlast
    exact ⟨"/", by simp, before ++ '\'' :: front, after, by simp [hline]⟩

theorem Locates.namesModel {api stem kind line : String} (hkind : kind ∈ modelKinds)
    (h : Locates '\'' (modelFile stem kind) line) (hstem : stem = api ∨ stem = snakeCase api) :
    NamesModel api line := by
  obtain ⟨start, hstart, hwithin⟩ := h.infix
  refine ⟨start, hstart, stem, by simpa using hstem, kind, hkind, ?_⟩
  have hpattern : start ++ modelFile stem kind ++ "'" = start ++ stem ++ "_" ++ kind ++ ".dart'" := by
    apply String.toList_injective
    simp [modelFile]
  rwa [hpattern] at hwithin

theorem Locates.namesModel_iff {api stem kind line : String} (hkind : kind ∈ modelKinds)
    (h : Locates '\'' (modelFile stem kind) line) (hapi : IsName api) :
    NamesModel api line ↔ stem = api ∨ stem = snakeCase api := by
  refine ⟨?_, h.namesModel hkind⟩
  rintro ⟨start, hstart, other, hother, kind', hkind', hwithin⟩
  have hname : IsName other := by
    simp only [List.mem_cons, List.not_mem_nil, or_false] at hother
    rcases hother with rfl | rfl
    · exact hapi
    · exact isName_snakeCase api
  have hpattern : start ++ other ++ "_" ++ kind' ++ ".dart'" = start ++ modelFile other kind' ++ "'" := by
    apply String.toList_injective
    simp [modelFile]
  rw [hpattern] at hwithin
  have hfile := h.eq_of_infix (isName_modelFile hname hkind') hstart hwithin
  obtain rfl := modelFile_inj hkind' hkind hfile
  simpa using hother

/-- A location in double quotes has no end as the pattern wants it. -/
theorem Locates.not_namesModel {api file line : String} (h : Locates '"' file line) :
    ¬ NamesModel api line := by
  obtain ⟨before, directory, after, hline, -, hbefore, hdirectory, hafter⟩ := h.parts
  have hquote : '\'' ∉ line.toList := by
    have hfront : '\'' ∉ before := fun hmem => by simpa [isNameChar] using hbefore _ hmem
    have hname : '\'' ∉ file.toList := fun hmem => by simpa [isNameChar] using h.name _ hmem
    rw [hline]
    simp [hfront, hdirectory, hname, hafter]
  rintro ⟨start, -, stem, -, kind, -, hwithin⟩
  exact hquote (hwithin.subset (by simp))

theorem snakeCase_eq_of_eq {api other : String} (h : snakeCase api = other) :
    snakeCase other = snakeCase api := by
  subst h
  exact (Text.isSnake_snakeCase api).snakeCase_eq

/-- The import of an API's model file stays as long as no stale API has the stem of its file. A stale API
whose name is not that of a file also takes the imports that its marker spells out, and those in double
quotes always stay. -/
theorem mem_prune_modelImport {d : Document} {keep : List String} {api kind line : String} {quote : Char}
    (hkind : kind ∈ modelKinds) (hquote : quote = '\'' ∨ quote = '"')
    (hline : Locates quote (modelFile (snakeCase api) kind) line) :
    .directive line ∈ d.prune keep ↔ .directive line ∈ d ∧
      (quote = '"' ∨ ∀ other ∈ d.stale keep,
        snakeCase other ≠ snakeCase api ∧ (IsName other ∨ ¬ NamesModel other line)) := by
  rw [mem_prune_directive]
  refine and_congr_right fun _ => ?_
  rcases hquote with rfl | rfl
  · rw [or_iff_right (by decide)]
    refine forall₂_congr fun other _ => ?_
    have hstem (h : snakeCase api = other ∨ snakeCase api = snakeCase other) :
        snakeCase other = snakeCase api := h.elim snakeCase_eq_of_eq Eq.symm
    have htaken (h : snakeCase other = snakeCase api) : NamesModel other line :=
      hline.namesModel hkind (.inr h.symm)
    constructor
    · exact fun hkept => ⟨fun h => hkept (htaken h), .inr hkept⟩
    · rintro ⟨hne, hname | hkept⟩
      · exact fun h => hne (hstem ((hline.namesModel_iff hkind hname).mp h))
      · exact hkept
  · exact iff_of_true (fun other _ => hline.not_namesModel) (.inl rfl)

theorem locates_getUserBody :
    Locates '\'' (modelFile (snakeCase "get_user") "body")
      "import '../models/body/get_user_body.dart';" where
  parts := ⟨"import ".toList, "../models/body/".toList, ";".toList, by decide +kernel, by decide,
    List.all_eq_true.mp (by decide), by decide, by decide⟩
  name := isName_modelFile (isName_snakeCase _) (by decide)

def interfaceBlock (api : String) : Node :=
  .block ⟨"interface", api⟩ (beginMarker "interface" api) [] (endMarker "interface" api)

/-- The stem of a stale API may begin with that of one that is kept. -/
theorem mem_prune_modelImport_prefix :
    .directive "import '../models/body/get_user_body.dart';" ∈
      prune [.directive "import '../models/body/get_user_body.dart';", interfaceBlock "get_user",
        interfaceBlock "get_user_body"] ["get_user"] := by
  refine (mem_prune_modelImport (by decide) (.inl rfl) locates_getUserBody).mpr ⟨by simp, .inr ?_⟩
  have hname : IsName "get_user_body" := by decide +kernel
  have hstem : snakeCase "get_user_body" ≠ snakeCase "get_user" := by decide +kernel
  have hstale : stale [.directive "import '../models/body/get_user_body.dart';",
      interfaceBlock "get_user", interfaceBlock "get_user_body"] ["get_user"] = ["get_user_body"] := by
    decide +kernel
  simp [hstale, hname, hstem]

/-- An API that is kept loses its import to one that is spelled differently. -/
theorem exists_kept_import_dropped :
    ∃ (d : Document) (line : String),
      (Validation.nameIssues (.str "getUser")).isValid = true ∧
        Locates '\'' (modelFile (snakeCase "getUser") "body") line ∧ .directive line ∈ d ∧
        .directive line ∉ d.prune ["getUser"] :=
  ⟨[.directive "import '../models/body/get_user_body.dart';", interfaceBlock "get_user",
      interfaceBlock "getUser"],
    "import '../models/body/get_user_body.dart';", by decide +kernel, locates_getUserBody, by simp,
    by decide +kernel⟩

end Aggregate.Document

end DartScaffold
