import DartScaffold.Proofs.Dart.Field
import DartScaffold.Proofs.Disk.Footprint
import DartScaffold.Proofs.Run.Script
import DartScaffold.Run.PageUnits
import Mathlib.Data.List.Nodup

/-!
Where the files of a page are. The name of a generated file is a stem and an ending, and no ending ends
with another; so the names tell apart the files of different APIs, the files of one API, and the files
that the APIs share.
-/

namespace DartScaffold

open Aggregate (FileKind)
open Disk (Location)

/-! ### Names of files -/

namespace Disk

/-- The name that the location ends in. -/
def Location.Names (l : Location) (name : String) : Prop :=
  l.parts.getLast? = some name

theorem Location.Names.name_eq {l : Location} {name : String} (h : l.Names name) : l.name = name := by
  rw [Location.name, h]
  rfl

theorem getLast?_absoluteKey {l : Location} {name : String} (h : l.Names name) (hup : name ≠ "..")
    (d : Disk) : (d.absoluteKey l).getLast? = some name := by
  obtain ⟨front, hparts⟩ := List.getLast?_eq_some_iff.mp h
  rw [absoluteKey, hparts, List.foldl_append, List.foldl_cons, List.foldl_nil, if_neg hup]
  simp

/-- A location below another ends as its text does after the last slash. -/
theorem names_child {text file : String} (directory : List Char)
    (htext : text.toList = directory ++ file.toList)
    (hdirectory : directory = [] ∨ ∃ front, directory = front ++ ['/'])
    (hslash : '/' ∉ file.toList) (hempty : file ≠ "") (hdot : file ≠ ".") (l : Location) :
    (l.child text).Names file := by
  have hsingle : file.toList.splitOn '/' = [file.toList] := List.splitOn_eq_singleton hslash
  have hsplit : ∃ front, Text.splitOnChar '/' text.toList = front ++ [file.toList] := by
    rw [Text.splitOnChar_eq_splitOn, htext]
    rcases hdirectory with rfl | ⟨front, rfl⟩
    · exact ⟨[], by rw [List.nil_append, hsingle, List.nil_append]⟩
    · rw [List.append_assoc, List.singleton_append, List.splitOn_append_cons_self, hsingle]
      exact ⟨_, rfl⟩
  obtain ⟨front, hsplit⟩ := hsplit
  have hparts : ∃ names, (Location.ofString text).parts = names ++ [file] := by
    refine ⟨(front.map String.ofList).filter fun p => p != "" && p != ".", ?_⟩
    rw [Location.ofString, hsplit]
    simp [hempty, hdot]
  obtain ⟨names, hparts⟩ := hparts
  rw [Location.Names, Location.child, Location.join]
  split <;> simp [hparts]

end Disk

namespace Run

/-- How the names of the files that are an API's own end. -/
def ownEndings : List String :=
  ["_body.dart", "_body_test.dart", "_response.dart", "_entity.dart", "_response_test.dart",
    "_extra.dart", "_use_case.dart"]

/-- How the names of the files that the APIs of a page share end. -/
def sharedEnding : FileKind → String
  | .remoteDataSource => "_remote_data_source.dart"
  | .repositoryImpl => "_repository_impl.dart"
  | .domainRepository => "_repository.dart"
  | .mapper => "mapper.dart"

def kinds : List FileKind :=
  [.remoteDataSource, .repositoryImpl, .domainRepository, .mapper]

theorem mem_kinds (kind : FileKind) : kind ∈ kinds := by
  cases kind <;> decide

theorem sharedEnding_inj {kind kind' : FileKind} (h : sharedEnding kind = sharedEnding kind') :
    kind = kind' := by
  cases kind <;> cases kind' <;> first | rfl | exact absurd h (by decide)

def endings : List String :=
  ownEndings ++ kinds.map sharedEnding

theorem sharedEnding_mem (kind : FileKind) : sharedEnding kind ∈ endings :=
  List.mem_append_right _ (List.mem_map_of_mem (mem_kinds kind))

theorem sharedEnding_not_mem_ownEndings : ∀ kind ∈ kinds, sharedEnding kind ∉ ownEndings := by
  decide +kernel

theorem eq_of_isSuffix_endings :
    ∀ e ∈ endings, ∀ e' ∈ endings, e.toList <:+ e'.toList → e = e' := by
  decide +kernel

theorem isSuffix_of_mem_endings : ∀ e ∈ endings, "dart".toList <:+ e.toList := by
  decide +kernel

theorem slash_not_mem_endings : ∀ e ∈ endings, '/' ∉ e.toList := by
  decide +kernel

/-- A generated file, by the stem and the ending of its name. -/
structure Ends (l : Location) (stem ending : String) : Prop where
  names : l.Names (stem ++ ending)
  mem : ending ∈ endings

theorem eq_of_stem_append {stem stem' e e' : String} (he : e ∈ endings) (he' : e' ∈ endings)
    (h : stem ++ e = stem' ++ e') : stem = stem' ∧ e = e' := by
  have hlists : stem.toList ++ e.toList = stem'.toList ++ e'.toList := by
    rw [← String.toList_append, ← String.toList_append, h]
  have hsuffix : e.toList <:+ stem.toList ++ e.toList := List.suffix_append _ _
  have hsuffix' : e'.toList <:+ stem.toList ++ e.toList := hlists ▸ List.suffix_append _ _
  have heq : e = e' := by
    rcases List.suffix_or_suffix_of_suffix hsuffix hsuffix' with h | h
    · exact eq_of_isSuffix_endings e he e' he' h
    · exact (eq_of_isSuffix_endings e' he' e he h).symm
  subst heq
  exact ⟨String.append_left_inj _ |>.mp h, rfl⟩

theorem isSuffix_temporaryName (name : String) :
    "tmp".toList <:+ (Disk.temporaryName name).toList := by
  refine ⟨("." ++ name ++ ".xxxxxxxx.").toList, ?_⟩
  simp [Disk.temporaryName]

section Ends

variable {l l' : Location} {stem stem' ending ending' : String}

theorem Ends.isSuffix (h : Ends l stem ending) : "dart".toList <:+ (stem ++ ending).toList := by
  rw [String.toList_append]
  exact (isSuffix_of_mem_endings ending h.mem).trans (List.suffix_append _ _)

theorem Ends.ne_temporaryName (h : Ends l stem ending) (name : String) :
    stem ++ ending ≠ Disk.temporaryName name := by
  intro heq
  have hdart := h.isSuffix
  rw [heq] at hdart
  rcases List.suffix_or_suffix_of_suffix hdart (isSuffix_temporaryName name) with h | h
  · exact absurd h (by decide)
  · exact absurd h (by decide)

theorem Ends.getLast? (h : Ends l stem ending) (d : Disk) :
    (d.absoluteKey l).getLast? = some (stem ++ ending) := by
  refine Disk.getLast?_absoluteKey h.names ?_ d
  intro heq
  have hdart := h.isSuffix
  rw [heq] at hdart
  exact absurd hdart (by decide)

/-- Files with different names are different files, whatever directories they are in. -/
theorem Ends.disjoint (h : Ends l stem ending) (h' : Ends l' stem' ending')
    (hne : stem = stem' → ending ≠ ending') (d : Disk) :
    ∀ key ∈ d.landings l, key ∉ d.landings l' := by
  have hnames : stem ++ ending ≠ stem' ++ ending' := by
    intro heq
    obtain ⟨hstem, hending⟩ := eq_of_stem_append h.mem h'.mem heq
    exact hne hstem hending
  have hlast := h.getLast? d
  have hlast' := h'.getLast? d
  have hkeys : d.absoluteKey l ≠ d.absoluteKey l' := by
    intro heq
    rw [heq, hlast'] at hlast
    exact hnames (Option.some.inj hlast).symm
  simp only [Disk.landings, List.mem_cons, List.not_mem_nil, or_false]
  rintro key (rfl | rfl) (heq | heq)
  · exact hkeys heq
  · rw [heq, List.getLast?_concat] at hlast
    exact h.ne_temporaryName _ (Option.some.inj hlast).symm
  · rw [← heq, List.getLast?_concat] at hlast'
    exact h'.ne_temporaryName _ (Option.some.inj hlast').symm
  · exact hkeys (List.append_inj' heq rfl).1

end Ends

/-- No generated file has the name of a temporary one. -/
theorem untemporary_of_ends {places : List Location}
    (h : ∀ l ∈ places, ∃ stem ending, Ends l stem ending) (d : Disk) : d.Untemporary places := by
  intro l hl other _ heq
  obtain ⟨stem, ending, hends⟩ := h l hl
  have hlast := hends.getLast? d
  rw [heq, List.getLast?_concat] at hlast
  exact hends.ne_temporaryName _ (Option.some.inj hlast).symm

/-- The names of files that are made from a name in the configuration. -/
theorem ends_child {directory stem ending : String} (hstem : Dart.IsPlain stem)
    (hmem : ending ∈ endings) (hdirectory : directory = "" ∨ directory.toList.getLast? = some '/')
    (l : Location) : Ends (l.child (directory ++ stem ++ ending)) stem ending := by
  have hslash : '/' ∉ (stem ++ ending).toList := by
    rw [String.toList_append]
    refine List.not_mem_append (hstem.not_mem (by decide) (by decide)) ?_
    exact slash_not_mem_endings ending hmem
  have hdart : "dart".toList <:+ (stem ++ ending).toList := by
    rw [String.toList_append]
    exact (isSuffix_of_mem_endings ending hmem).trans (List.suffix_append _ _)
  refine ⟨Disk.names_child directory.toList ?_ ?_ hslash ?_ ?_ l, hmem⟩
  · simp [List.append_assoc]
  · rcases hdirectory with rfl | hlast
    · exact .inl (by simp)
    · obtain ⟨front, hfront⟩ := List.getLast?_eq_some_iff.mp hlast
      exact .inr ⟨front, hfront⟩
  · intro heq
    rw [heq] at hdart
    exact absurd hdart (by decide)
  · intro heq
    rw [heq] at hdart
    exact absurd hdart (by decide)

namespace ApiUnit

/-! ### The files of one API -/

variable (plan : Plan) (site : Site) (api : Api)

/-- The file of an API in a directory below `l`, after the ending of its name. -/
def fileAt (l : Location) (directory ending : String) : String × Location :=
  (ending, l.child (directory ++ fileStem api ++ ending))

def extraFiles : List (String × Location) :=
  (plan.placesOf api.dirExtra).map fun directory => fileAt api directory "" "_extra.dart"

/-- The model files and their tests. -/
def modelFiles : List (String × Location) :=
  [fileAt api site.directory "data/models/body/" "_body.dart"] ++
  (if site.wantsTests plan then [fileAt api site.testDirectory "data/models/body/" "_body_test.dart"]
  else []) ++
  (if api.returnsModel then
    [fileAt api site.directory "data/models/response/" "_response.dart"] ++
      [fileAt api site.directory "domain/entities/" "_entity.dart"] ++
      (if site.wantsTests plan then
        [fileAt api site.testDirectory "data/models/response/" "_response_test.dart"] else []) ++
      extraFiles plan api
  else [])

/-- The files that are the API's own, each with the ending of its name. -/
def ownFiles : List (String × Location) :=
  modelFiles plan site api ++
    if site.wantsLayers plan then [fileAt api site.directory "domain/usecases/" "_use_case.dart"]
    else []

def ownPlaces : List Location :=
  (ownFiles plan site api).map Prod.snd

theorem ends_fileAt {directory ending : String} (hmem : ending ∈ ownEndings)
    (hdirectory : directory = "" ∨ directory.toList.getLast? = some '/') (l : Location) :
    Ends (fileAt api l directory ending).2 (fileStem api) ending :=
  ends_child (Dart.isPlain_snakeCase api.name) (List.mem_append_left _ hmem) hdirectory l

theorem ends_ownFiles :
    ∀ file ∈ ownFiles plan site api, file.1 ∈ ownEndings ∧ Ends file.2 (fileStem api) file.1 := by
  have hextra : ∀ file ∈ extraFiles plan api,
      file.1 ∈ ownEndings ∧ Ends file.2 (fileStem api) file.1 := by
    have hmem : "_extra.dart" ∈ ownEndings := by decide
    exact List.forall_mem_map.mpr fun directory _ => ⟨hmem, ends_fileAt api hmem (.inl rfl) directory⟩
  have hone : ∀ (l : Location) (directory ending : String), ending ∈ ownEndings →
      directory.toList.getLast? = some '/' → ∀ file ∈ [fileAt api l directory ending],
        file.1 ∈ ownEndings ∧ Ends file.2 (fileStem api) file.1 :=
    fun l directory ending hmem hdirectory =>
      List.forall_mem_singleton.mpr ⟨hmem, ends_fileAt api hmem (.inr hdirectory) l⟩
  have hnone : ∀ file ∈ ([] : List (String × Location)),
      file.1 ∈ ownEndings ∧ Ends file.2 (fileStem api) file.1 := by
    simp
  rw [ownFiles, modelFiles]
  refine List.forall_mem_append.mpr ⟨List.forall_mem_append.mpr ⟨List.forall_mem_append.mpr
    ⟨hone _ _ _ (by decide) (by decide), ?_⟩, ?_⟩, ?_⟩
  · split
    · exact hone _ _ _ (by decide) (by decide)
    · exact hnone
  · split
    · refine List.forall_mem_append.mpr ⟨List.forall_mem_append.mpr ⟨List.forall_mem_append.mpr
        ⟨hone _ _ _ (by decide) (by decide), hone _ _ _ (by decide) (by decide)⟩, ?_⟩, hextra⟩
      · split
        · exact hone _ _ _ (by decide) (by decide)
        · exact hnone
    · exact hnone
  · split
    · exact hone _ _ _ (by decide) (by decide)
    · exact hnone

theorem untemporary_ownPlaces (d : Disk) : d.Untemporary (ownPlaces plan site api) := by
  refine untemporary_of_ends (fun l hl => ?_) d
  obtain ⟨file, hfile, rfl⟩ := List.mem_map.mp hl
  exact ⟨_, _, (ends_ownFiles plan site api file hfile).2⟩

theorem nodup_endings_ownFiles : ((ownFiles plan site api).map Prod.fst).Nodup := by
  have hextra : (extraFiles plan api).map Prod.fst = [] ∨
      (extraFiles plan api).map Prod.fst = ["_extra.dart"] := by
    rw [extraFiles, Plan.placesOf]
    cases (plan.place? api.dirExtra).toOption.join with
    | none => exact .inl rfl
    | some directory => exact .inr rfl
  rw [ownFiles, modelFiles]
  simp only [List.map_append]
  cases site.wantsTests plan <;> cases api.returnsModel <;> cases site.wantsLayers plan <;>
    rcases hextra with hextra | hextra <;> simp [hextra, fileAt]

/-- The own files of different APIs, and those of one API, are different files. -/
theorem disjoint_ownFiles {other : Api} {file file' : String × Location}
    (h : file ∈ ownFiles plan site api) (h' : file' ∈ ownFiles plan site other)
    (hne : fileStem api = fileStem other → file.1 ≠ file'.1) (d : Disk) :
    ∀ key ∈ d.landings file.2, key ∉ d.landings file'.2 :=
  (ends_ownFiles plan site api file h).2.disjoint (ends_ownFiles plan site other file' h').2 hne d

end ApiUnit

/-! ### The files that the APIs share -/

namespace Site

variable (site : Site)

/-- Where an aggregate file is in the page's directory, but for the end of its name. -/
def aggregateStart : FileKind → String × String
  | .remoteDataSource => ("data/datasources/", Text.snakeCase site.page.name)
  | .repositoryImpl => ("data/repositories/", Text.snakeCase site.page.name)
  | .domainRepository => ("domain/repositories/", Text.snakeCase site.page.name)
  | .mapper => ("", "")

def aggregatePath (kind : FileKind) : String :=
  (site.aggregateStart kind).1 ++ (site.aggregateStart kind).2 ++ sharedEnding kind

def aggregate (kind : FileKind) : Location :=
  site.directory.child (site.aggregatePath kind)

theorem map_aggregate_kinds :
    kinds.map site.aggregate = (PageUnits.aggregatePaths site).map site.directory.child := by
  have hmapper : site.aggregatePath .mapper = "mapper.dart" := by
    change ("" : String) ++ "" ++ "mapper.dart" = "mapper.dart"
    decide
  simp only [kinds, List.map_cons, List.map_nil, aggregate, hmapper, PageUnits.aggregatePaths]
  rfl

theorem ends_aggregate (kind : FileKind) :
    ∃ stem, Ends (site.aggregate kind) stem (sharedEnding kind) := by
  have hpage := Dart.isPlain_snakeCase site.page.name
  have hends : ∀ directory stem : String, Dart.IsPlain stem →
      (directory = "" ∨ directory.toList.getLast? = some '/') →
      ∃ stem', Ends (site.directory.child (directory ++ stem ++ sharedEnding kind)) stem'
        (sharedEnding kind) :=
    fun directory stem hstem hdirectory =>
      ⟨stem, ends_child hstem (sharedEnding_mem kind) hdirectory _⟩
  cases kind with
  | remoteDataSource => exact hends "data/datasources/" _ hpage (.inr (by decide))
  | repositoryImpl => exact hends "data/repositories/" _ hpage (.inr (by decide))
  | domainRepository => exact hends "domain/repositories/" _ hpage (.inr (by decide))
  | mapper => exact hends "" "" (by decide) (.inl rfl)

/-- Different aggregate files are different files. -/
theorem disjoint_aggregates {kind kind' : FileKind} (h : kind ≠ kind') (d : Disk) :
    ∀ key ∈ d.landings (site.aggregate kind), key ∉ d.landings (site.aggregate kind') := by
  obtain ⟨stem, hends⟩ := site.ends_aggregate kind
  obtain ⟨stem', hends'⟩ := site.ends_aggregate kind'
  exact hends.disjoint hends' (fun _ heq => h (sharedEnding_inj heq)) d

/-- An API's own files are none of the shared ones. -/
theorem disjoint_own_aggregate (plan : Plan) (api : Api) {file : String × Location}
    (h : file ∈ ApiUnit.ownFiles plan site api) (kind : FileKind) (d : Disk) :
    (∀ key ∈ d.landings file.2, key ∉ d.landings (site.aggregate kind)) ∧
      ∀ key ∈ d.landings (site.aggregate kind), key ∉ d.landings file.2 := by
  obtain ⟨hmem, hends⟩ := ApiUnit.ends_ownFiles plan site api file h
  obtain ⟨stem', hends'⟩ := site.ends_aggregate kind
  have hne : file.1 ≠ sharedEnding kind := fun heq =>
    sharedEnding_not_mem_ownEndings kind (mem_kinds kind) (heq ▸ hmem)
  exact ⟨hends.disjoint hends' (fun _ => hne) d, hends'.disjoint hends (fun _ => hne.symm) d⟩

end Site

end Run

end DartScaffold
