import DartScaffold.Proofs.Layer.Lines
import DartScaffold.Proofs.Aggregate.View
import Mathlib.Data.List.Nodup

/-!
The fragments of the layers cannot be taken for anything else, as long as no static header has a line
break. The skeletons of their files hold anchors and no blocks.
-/

namespace DartScaffold

open Aggregate (Fragment IsApiId IsPartName)
open Dart (IsClear IsCodeLine IsOneLine IsPath IsPlain importLine isClear_append)

/-! ### Files without blocks -/

namespace Aggregate

theorem Document.clean_parse {text : String}
    (h : ∀ line ∈ Text.splitLines text, begin? line = none ∧ end? line = none) :
    (parse text).Clean ∧ (parse text).blockKeys = [] := by
  rw [parse]
  generalize Text.splitLines text = lines at h
  induction lines with
  | nil => simp [ofLines, Clean, blockKeys]
  | cons line rest ih =>
      obtain ⟨⟨hbegin, hend⟩, hrest⟩ := List.forall_mem_cons.mp h
      obtain ⟨hclean, hkeys⟩ := ih hrest
      have hnode : blockAt? line rest = none := by rw [blockAt?, hbegin]
      rw [ofLines, hnode]
      refine ⟨List.forall_mem_cons.mpr ⟨.line hbegin hend, hclean⟩, ?_⟩
      rw [blockKeys_eq, List.filterMap_cons_none (Node.key?_ofLine line), ← blockKeys_eq]
      exact hkeys

structure IsSkeletonLine (line : String) : Prop where
  oneLine : IsOneLine line
  markers : begin? line = none ∧ end? line = none

/-- A text that blocks can be put into and that has none yet. -/
structure IsSkeleton (text : String) : Prop where
  carriage : '\r' ∉ text.toList
  clean : (Document.parse text).Clean
  blocks : (Document.parse text).blockKeys = []

theorem isSkeleton_joinLines {lines : List String} (hne : lines ≠ [])
    (h : ∀ line ∈ lines, IsSkeletonLine line) : IsSkeleton (Text.joinLines lines) := by
  have hlines : Text.splitLines (Text.joinLines lines) = lines :=
    Text.splitLines_joinLines hne fun line hline hmem => ((h line hline).oneLine _ hmem).1 rfl
  obtain ⟨hclean, hkeys⟩ := @Document.clean_parse (Text.joinLines lines)
    (hlines.symm ▸ fun line hline => (h line hline).markers)
  refine ⟨fun hmem => ?_, hclean, hkeys⟩
  obtain ⟨line, hline, hmem⟩ := Text.mem_joinLines (by decide) hmem
  exact ((h line hline).oneLine _ hmem).2 rfl

theorem isSkeletonLine_of_isClear {line : String} (h : IsClear line) : IsSkeletonLine line := by
  obtain ⟨honeLine, hdark⟩ := h.isCodeLine
  obtain ⟨hbegin, hend, -⟩ := no_marker_of_firstDark hdark
  exact ⟨honeLine, hbegin, hend⟩

theorem isSkeletonLine_importLine {path : String} (h : IsPath path) (hne : path ≠ "") :
    IsSkeletonLine (importLine path "") := by
  obtain ⟨hbegin, hend, -⟩ := no_marker_of_isImportLine (Dart.isImportLine_importLine h hne .none)
  have honeLine : IsOneLine path := by
    intro c hc
    have hdark := (h.dark c hc).1
    refine ⟨?_, ?_⟩ <;> rintro rfl <;> exact absurd hdark (by decide)
  refine ⟨?_, hbegin, hend⟩
  have hstart := Dart.isOneLine_append.mpr ⟨show IsOneLine "import '" by decide, honeLine⟩
  have hquoted := Dart.isOneLine_append.mpr ⟨hstart, show IsOneLine "'" by decide⟩
  exact Dart.isOneLine_append.mpr ⟨Dart.isOneLine_append.mpr ⟨hquoted, by decide⟩, by decide⟩

end Aggregate

namespace Layer.Context

variable (c : Context)

/-! ### Imports -/

/-- The import of a file that is named after the API. -/
theorem isImportLine_apiFile {directory ending : String} (hdirectory : IsPath directory)
    (hending : IsPath ending) (hne : ending ≠ "") :
    Aggregate.isImportLine (Aggregate.normalizeImport
      (importLine (directory ++ c.apiFile ++ ending) "")) = true := by
  have hfile : IsPath c.apiFile := (Dart.isPlain_snakeCase c.api.name).isPath
  refine Dart.isImportLine_normalizeImport_importLine ((hdirectory.append hfile).append hending)
    (fun heq => ?_) .none
  exact hne (String.append_eq_empty_iff.mp heq).2

theorem isImportLine_modelImports {bodies : String} {entities : Option String}
    (hbodies : IsPath bodies) (hentities : ∀ directory ∈ entities, IsPath directory) :
    ∀ line ∈ c.modelImports bodies entities,
      Aggregate.isImportLine (Aggregate.normalizeImport line) = true := by
  have hslash : IsPath "/" := by decide
  have hbody : s!"import '{bodies}/{c.apiFile}_body.dart';" =
      importLine (bodies ++ "/" ++ c.apiFile ++ "_body.dart") "" := by
    simp [importLine, toString, ← String.toList_inj]
  rw [modelImports.eq_def]
  refine List.forall_mem_append.mpr ⟨List.forall_mem_append.mpr ⟨?_,
    List.forall_mem_singleton.mpr ?_⟩, ?_⟩
  · split
    · decide +kernel
    · simp
  · rw [hbody]
    exact c.isImportLine_apiFile (hbodies.append hslash) (by decide) (by decide)
  · cases entities with
    | none => simp
    | some directory =>
        have hentity : s!"import '{directory}/{c.apiFile}_entity.dart';" =
            importLine (directory ++ "/" ++ c.apiFile ++ "_entity.dart") "" := by
          simp [importLine, toString, ← String.toList_inj]
        dsimp only
        split
        · rw [hentity]
          exact List.forall_mem_singleton.mpr
            (c.isImportLine_apiFile ((hentities directory rfl).append hslash) (by decide) (by decide))
        · simp

theorem isImportLine_dataSourceImports : ∀ line ∈ c.dataSourceImports,
    Aggregate.isImportLine (Aggregate.normalizeImport line) = true := by
  have hresponse : s!"import '../models/response/{c.apiFile}_response.dart';" =
      importLine ("../models/response/" ++ c.apiFile ++ "_response.dart") "" := by
    simp [importLine, toString, ← String.toList_inj]
  rw [dataSourceImports]
  refine List.forall_mem_append.mpr ⟨List.forall_mem_append.mpr ⟨?_,
    c.isImportLine_modelImports (by decide) (by simp)⟩, ?_⟩
  · split
    · decide +kernel
    · simp
  · split
    · rw [hresponse]
      exact List.forall_mem_singleton.mpr (c.isImportLine_apiFile (by decide) (by decide) (by decide))
    · simp

theorem isImportLine_repositoryImplImports : ∀ line ∈ c.repositoryImpl.imports,
    Aggregate.isImportLine (Aggregate.normalizeImport line) = true := by
  rw [repositoryImpl]
  refine List.forall_mem_append.mpr ⟨c.isImportLine_modelImports (by decide) ?_, ?_⟩
  · rintro directory ⟨⟩
    decide
  · split
    · decide +kernel
    · simp

theorem isImportLine_repositoryImports : ∀ line ∈ c.repository.imports,
    Aggregate.isImportLine (Aggregate.normalizeImport line) = true := by
  have hentities : ∀ directory ∈ some "../entities", IsPath directory := by
    rintro directory ⟨⟩
    decide
  have hbodies : IsPath "../../data/models/body" := by decide
  exact c.isImportLine_modelImports hbodies hentities

/-! ### Skeletons -/

section Skeleton

open Aggregate (IsSkeleton IsSkeletonLine isSkeletonLine_of_isClear)

theorem isSkeletonLine_coreImport : IsSkeletonLine coreImport :=
  ⟨by decide +kernel, by decide +kernel, by decide +kernel⟩

theorem isSkeletonLine_anchor {part : String} (h : part ∈ [interfaceSection, implementationSection]) :
    IsSkeletonLine ("  " ++ Aggregate.anchorMarker part) := by
  have hall : ∀ part ∈ [interfaceSection, implementationSection],
      IsOneLine ("  " ++ Aggregate.anchorMarker part) ∧
        Aggregate.begin? ("  " ++ Aggregate.anchorMarker part) = none ∧
        Aggregate.end? ("  " ++ Aggregate.anchorMarker part) = none := by
    decide +kernel
  obtain ⟨honeLine, hmarkers⟩ := hall part h
  exact ⟨honeLine, hmarkers⟩

/-- The import of a file that is named after the page. -/
theorem isSkeletonLine_pageFile {directory ending : String} (hdirectory : IsPath directory)
    (hending : IsPath ending) (hne : ending ≠ "") :
    IsSkeletonLine (importLine (directory ++ c.pageFile ++ ending) "") := by
  have hfile : IsPath c.pageFile := (Dart.isPlain_snakeCase c.page).isPath
  refine Aggregate.isSkeletonLine_importLine ((hdirectory.append hfile).append hending) fun heq => ?_
  exact hne (String.append_eq_empty_iff.mp heq).2

theorem isClear_pageClass : IsClear c.pageClass := (isPlain_pascalCase _).isClear

theorem isSkeleton_dataSourceSkeleton : IsSkeleton c.dataSourceSkeleton := by
  have hinterface := isSkeletonLine_anchor (show interfaceSection ∈ _ from List.mem_cons_self)
  have himplementation := isSkeletonLine_anchor
    (show implementationSection ∈ [interfaceSection, implementationSection] by decide)
  have hpage := c.isClear_pageClass
  rw [dataSourceSkeleton]
  refine Aggregate.isSkeleton_joinLines (List.cons_ne_nil _ _) ?_
  simp only [List.forall_mem_cons]
  refine ⟨isSkeletonLine_coreImport, isSkeletonLine_of_isClear ?_, isSkeletonLine_of_isClear ?_,
    hinterface, isSkeletonLine_of_isClear ?_, isSkeletonLine_of_isClear ?_,
    isSkeletonLine_of_isClear ?_, isSkeletonLine_of_isClear ?_, isSkeletonLine_of_isClear ?_,
    isSkeletonLine_of_isClear ?_, isSkeletonLine_of_isClear ?_, himplementation,
    isSkeletonLine_of_isClear ?_, isSkeletonLine_of_isClear ?_, by simp⟩
  all_goals simp +decide [toString, isClear_append, hpage]

theorem isSkeleton_repositorySkeleton : IsSkeleton c.repositorySkeleton := by
  have hinterface := isSkeletonLine_anchor (show interfaceSection ∈ _ from List.mem_cons_self)
  have hpage := c.isClear_pageClass
  rw [repositorySkeleton]
  refine Aggregate.isSkeleton_joinLines (List.cons_ne_nil _ _) ?_
  simp only [List.forall_mem_cons]
  refine ⟨isSkeletonLine_coreImport, isSkeletonLine_of_isClear ?_, isSkeletonLine_of_isClear ?_,
    hinterface, isSkeletonLine_of_isClear ?_, isSkeletonLine_of_isClear ?_, by simp⟩
  all_goals simp +decide [toString, isClear_append, hpage]

theorem isSkeleton_repositoryImplSkeleton : IsSkeleton c.repositoryImplSkeleton := by
  have himplementation := isSkeletonLine_anchor
    (show implementationSection ∈ [interfaceSection, implementationSection] by decide)
  have hrepository := c.isSkeletonLine_pageFile (show IsPath "../../domain/repositories/" by decide)
    (show IsPath "_repository.dart" by decide) (by decide)
  have hsource := c.isSkeletonLine_pageFile (show IsPath "../datasources/" by decide)
    (show IsPath "_remote_data_source.dart" by decide) (by decide)
  have hrepositoryLine : s!"import '../../domain/repositories/{c.pageFile}_repository.dart';" =
      importLine ("../../domain/repositories/" ++ c.pageFile ++ "_repository.dart") "" := by
    simp [importLine, toString, ← String.toList_inj]
  have hsourceLine : s!"import '../datasources/{c.pageFile}_remote_data_source.dart';" =
      importLine ("../datasources/" ++ c.pageFile ++ "_remote_data_source.dart") "" := by
    simp [importLine, toString, ← String.toList_inj]
  have hpage := c.isClear_pageClass
  rw [repositoryImplSkeleton]
  refine Aggregate.isSkeleton_joinLines (List.cons_ne_nil _ _) ?_
  simp only [List.forall_mem_cons]
  refine ⟨isSkeletonLine_coreImport, isSkeletonLine_of_isClear ?_, hrepositoryLine ▸ hrepository,
    hsourceLine ▸ hsource, isSkeletonLine_of_isClear ?_, isSkeletonLine_of_isClear ?_,
    isSkeletonLine_of_isClear ?_, isSkeletonLine_of_isClear ?_, isSkeletonLine_of_isClear ?_,
    isSkeletonLine_of_isClear ?_, isSkeletonLine_of_isClear ?_, isSkeletonLine_of_isClear ?_,
    himplementation, isSkeletonLine_of_isClear ?_, isSkeletonLine_of_isClear ?_, by simp⟩
  all_goals simp +decide [toString, isClear_append, hpage]

end Skeleton

/-! ### Fragments -/

/-- A block whose text is lines of code. -/
structure IsCodeBlock (block : String × String) : Prop where
  part : IsPartName block.1
  code : ∃ lines, lines ≠ [] ∧ (∀ line ∈ lines, IsCodeLine line) ∧
    block.2 = Text.joinLines lines

theorem isCodeBlock_joinLines {part : String} {lines : List String} (hpart : IsPartName part)
    (hne : lines ≠ []) (hlines : ∀ line ∈ lines, IsCodeLine line) :
    IsCodeBlock (part, Text.joinLines lines) :=
  ⟨hpart, lines, hne, hlines, rfl⟩

theorem wellFormed_of_isCodeBlock {f : Fragment} (hapi : IsApiId f.api)
    (hblocks : ∀ block ∈ f.blocks, IsCodeBlock block) (hdistinct : (f.blocks.map Prod.fst).Nodup)
    (himports : ∀ line ∈ f.imports,
      Aggregate.isImportLine (Aggregate.normalizeImport line) = true)
    (hskeleton : '\r' ∉ f.skeleton.toList) : f.WellFormed where
  api := hapi
  parts block hblock := (hblocks block hblock).part
  distinct := hdistinct
  bodies block hblock := by
    obtain ⟨lines, hne, hlines, heq⟩ := (hblocks block hblock).code
    rw [heq]
    exact Dart.isBody_joinLines hlines hne _
  imports line hline := .inr (himports line hline)
  carriages block hblock := by
    obtain ⟨lines, -, hlines, heq⟩ := (hblocks block hblock).code
    rw [heq]
    exact Dart.carriage_not_mem_joinLines hlines
  skeleton := hskeleton

section Fragment

theorem isCodeBlock_implementation {lines : List String}
    (hlines : ∀ line ∈ lines, IsCodeLine line) (hne : lines ≠ []) :
    IsCodeBlock (implementationSection, Text.joinLines lines) :=
  isCodeBlock_joinLines (by decide) hne hlines

theorem isCodeBlock_interface {type : String} (htype : IsClear type) :
    IsCodeBlock (interfaceSection, Text.joinLines (c.signature type c.apiMethod ";")) :=
  isCodeBlock_joinLines (by decide) (List.cons_ne_nil _ _) fun line hline =>
    (c.isClear_signature htype c.isClear_apiMethod (by decide) line hline).isCodeLine

variable (hapi : IsApiId c.api.name)

include hapi

theorem wellFormed_repositoryImpl : c.repositoryImpl.WellFormed := by
  have hlines : ∀ line ∈ ["  @override"] ++ c.signature c.eitherClass c.apiMethod c.asyncEnding ++
      c.repositoryBody ++ ["  \x7d"], IsCodeLine line := by
    have hsignature := c.isClear_signature c.isClear_eitherClass c.isClear_apiMethod
      c.isClear_asyncEnding
    intro line hline
    refine Dart.IsClear.isCodeLine ?_
    revert line
    simp only [List.forall_mem_append]
    exact ⟨⟨⟨by decide, hsignature⟩, c.isClear_repositoryBody⟩, by decide⟩
  have hblock := isCodeBlock_implementation hlines (List.cons_ne_nil _ _)
  exact wellFormed_of_isCodeBlock hapi (List.forall_mem_singleton.mpr hblock)
    (List.nodup_singleton _) c.isImportLine_repositoryImplImports
    c.isSkeleton_repositoryImplSkeleton.carriage

theorem wellFormed_repository : c.repository.WellFormed := by
  have hblock := c.isCodeBlock_interface c.isClear_eitherClass
  exact wellFormed_of_isCodeBlock hapi (List.forall_mem_singleton.mpr hblock)
    (List.nodup_singleton _) c.isImportLine_repositoryImports
    c.isSkeleton_repositorySkeleton.carriage

theorem wellFormed_dataSource (h : c.Unbroken) {f : Fragment} (hf : c.dataSource = .ok f) :
    f.WellFormed := by
  rw [dataSource] at hf
  cases hbody : c.dataSourceBody with
  | error failure =>
      rw [hbody] at hf
      contradiction
  | ok body =>
      rw [hbody] at hf
      obtain rfl := Except.ok.inj hf
      have htype : IsClear s!"{c.futureClass}<{c.responseClass}>" := by
        have hresponse : IsClear c.responseClass := c.isClear_answerClass (by decide)
        simp +decide [toString, isClear_append, c.isClear_futureClass, hresponse]
      have hcode : ∀ {lines : List String}, (∀ line ∈ lines, IsClear line) →
          ∀ line ∈ lines, IsCodeLine line :=
        fun hlines line hline => (hlines line hline).isCodeLine
      have himplementation : ∀ line ∈ ["  @override"] ++
          c.signature s!"{c.futureClass}<{c.responseClass}>" c.apiMethod c.asyncEnding ++ body ++
            ["  \x7d"], IsCodeLine line := by
        simp only [List.forall_mem_append]
        exact ⟨⟨⟨hcode (by decide), hcode (c.isClear_signature htype c.isClear_apiMethod
          c.isClear_asyncEnding)⟩, c.isCodeLine_dataSourceBody h hbody⟩, hcode (by decide)⟩
      have hblocks := List.forall_mem_cons.mpr ⟨c.isCodeBlock_interface htype,
        List.forall_mem_singleton.mpr
          (isCodeBlock_implementation himplementation (List.cons_ne_nil _ _))⟩
      have hdistinct : [interfaceSection, implementationSection].Nodup := by decide
      exact wellFormed_of_isCodeBlock hapi hblocks hdistinct c.isImportLine_dataSourceImports
        c.isSkeleton_dataSourceSkeleton.carriage

end Fragment

end Layer.Context

end DartScaffold
