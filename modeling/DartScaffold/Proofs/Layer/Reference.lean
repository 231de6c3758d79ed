import DartScaffold.Layer.UseCase
import DartScaffold.Mapper
import DartScaffold.Proofs.Dart.Reference
import DartScaffold.Proofs.Layer.WellFormed

/-!
The references in the files of the layers. Besides the packages, which are not relative, each layer refers
to the models whose classes its methods mention and to the layer below it, and to nothing else.
-/

namespace DartScaffold

open Dart (IsClear IsOneLine IsPath IsPlain importLine isClear_append isOneLine_append isRelative
  references references_append references_cons)

/-! ### Lines -/

namespace Dart

/-- The lines are lines of a file, and these are the references in them. -/
structure Refers (lines refs : List String) : Prop where
  oneLine : ∀ line ∈ lines, IsOneLine line
  eq : references lines = refs

section Refers

variable {line ref : String} {lines more refs refs' : List String}

theorem Refers.nil : Refers [] [] := ⟨by simp, rfl⟩

theorem Refers.append (h : Refers lines refs) (h' : Refers more refs') :
    Refers (lines ++ more) (refs ++ refs') :=
  ⟨List.forall_mem_append.mpr ⟨h.oneLine, h'.oneLine⟩, by rw [references_append, h.eq, h'.eq]⟩

theorem Refers.cons (hline : Refers [line] [ref]) (h : Refers lines refs) :
    Refers (line :: lines) (ref :: refs) :=
  hline.append h

/-- A line that refers to nothing. -/
theorem Refers.skip (hline : Refers [line] []) (h : Refers lines refs) :
    Refers (line :: lines) refs :=
  hline.append h

theorem refers_of_isClear (h : ∀ line ∈ lines, IsClear line) : Refers lines [] :=
  ⟨fun line hline => (h line hline).isOneLine, references_of_isClear h⟩

theorem Refers.clear (hline : IsClear line) (h : Refers lines refs) : Refers (line :: lines) refs :=
  .skip (refers_of_isClear (List.forall_mem_singleton.mpr hline)) h

theorem Refers.joinLines (h : Refers lines refs) (hne : lines ≠ []) :
    references (Text.splitLines (Text.joinLines lines)) = refs := by
  rw [Text.splitLines_joinLines hne fun line hline hmem => (h.oneLine line hline _ hmem).1 rfl, h.eq]

/-- The import of a file that is named after something. -/
theorem refers_importLine {directory stem ending : String}
    (hdirectory : IsPath directory ∧ isRelative directory = true) (hstem : IsPlain stem)
    (hending : IsPlain ending ∧ ending ≠ "") :
    Refers [importLine (directory ++ stem ++ ending) ""] [directory ++ stem ++ ending] := by
  have hpath : IsPath (directory ++ stem ++ ending) :=
    (hdirectory.1.append hstem.isPath).append hending.1.isPath
  have hrelative : isRelative (directory ++ stem ++ ending) = true := by
    simp [isRelative_append, hdirectory.2, hstem.isRelative, hending.1.isRelative]
  have hne : directory ++ stem ++ ending ≠ "" :=
    fun heq => hending.2 (String.append_eq_empty_iff.mp heq).2
  refine ⟨List.forall_mem_singleton.mpr ?_, references_importLine hpath hrelative hne .none⟩
  exact isOneLine_importLine hpath

end Refers

end Dart

namespace Layer.Context

open Aggregate (anchorMarker)
open Dart (LeadTo Refers refers_importLine refers_of_isClear resolve? resolve?_eq resolve?_named)
open Disk (Location)

variable (c : Context)

/-! ### Imports -/

theorem refers_apiFile {directory ending : String}
    (hdirectory : IsPath directory ∧ isRelative directory = true)
    (hending : IsPlain ending ∧ ending ≠ "") :
    Refers [importLine (directory ++ c.apiFile ++ ending) ""] [directory ++ c.apiFile ++ ending] :=
  refers_importLine hdirectory (Dart.isPlain_snakeCase c.api.name) hending

theorem refers_pageFile {directory ending : String}
    (hdirectory : IsPath directory ∧ isRelative directory = true)
    (hending : IsPlain ending ∧ ending ≠ "") :
    Refers [importLine (directory ++ c.pageFile ++ ending) ""]
      [directory ++ c.pageFile ++ ending] :=
  refers_importLine hdirectory (Dart.isPlain_snakeCase c.page) hending

theorem refers_ite {p : Prop} [Decidable p] {lines refs : List String} (h : Refers lines refs) :
    Refers (if p then lines else []) (if p then refs else []) := by
  split
  · exact h
  · exact .nil

theorem refers_ite_nil {p : Prop} [Decidable p] {lines : List String} (h : Refers lines []) :
    Refers (if p then lines else []) [] := by
  split
  · exact h
  · exact .nil

theorem refers_modelImports (bodies : String) (entities : Option String)
    (hbodies : IsPath (bodies ++ "/") ∧ isRelative (bodies ++ "/") = true)
    (hentities : ∀ directory ∈ entities,
      IsPath (directory ++ "/") ∧ isRelative (directory ++ "/") = true) :
    Refers (c.modelImports bodies entities) ([bodies ++ "/" ++ c.apiFile ++ "_body.dart"] ++
      if c.api.returnsModel then
        entities.toList.map fun directory => directory ++ "/" ++ c.apiFile ++ "_entity.dart"
      else []) := by
  have hbytes : Refers ["import 'dart:typed_data';"] [] := ⟨by decide, by decide +kernel⟩
  have hbody : s!"import '{bodies}/{c.apiFile}_body.dart';" =
      importLine (bodies ++ "/" ++ c.apiFile ++ "_body.dart") "" := by
    simp [importLine, toString, ← String.toList_inj]
  rw [modelImports.eq_def, List.append_assoc, hbody]
  refine (refers_ite_nil hbytes).append ((c.refers_apiFile hbodies (by decide)).append ?_)
  cases entities with
  | none => simpa using Refers.nil
  | some directory =>
      have hentity : s!"import '{directory}/{c.apiFile}_entity.dart';" =
          importLine (directory ++ "/" ++ c.apiFile ++ "_entity.dart") "" := by
        simp [importLine, toString, ← String.toList_inj]
      dsimp only
      rw [hentity]
      exact refers_ite (c.refers_apiFile (hentities directory rfl) (by decide))

/-! ### Files -/

theorem refers_coreImport : Refers [coreImport] [] := ⟨by decide, by decide +kernel⟩

theorem refers_anchor {part : String} (h : part ∈ [interfaceSection, implementationSection]) :
    Refers ["  " ++ anchorMarker part] [] := by
  have hall : ∀ part ∈ [interfaceSection, implementationSection],
      IsOneLine ("  " ++ anchorMarker part) ∧ references ["  " ++ anchorMarker part] = [] := by
    decide +kernel
  exact ⟨List.forall_mem_singleton.mpr (hall part h).1, (hall part h).2⟩

theorem references_dataSourceSkeleton :
    references (Text.splitLines c.dataSourceSkeleton) = [] := by
  have hinterface := refers_anchor (show interfaceSection ∈ _ from List.mem_cons_self)
  have himplementation := refers_anchor
    (show implementationSection ∈ [interfaceSection, implementationSection] by decide)
  have hpage := c.isClear_pageClass
  rw [dataSourceSkeleton]
  refine Refers.joinLines (.skip refers_coreImport <| .clear ?_ <| .clear ?_ <|
    .skip hinterface <| .clear ?_ <| .clear ?_ <| .clear ?_ <| .clear ?_ <| .clear ?_ <|
    .clear ?_ <| .clear ?_ <| .skip himplementation <| .clear ?_ <| .clear ?_ .nil)
    (List.cons_ne_nil _ _)
  all_goals simp +decide [toString, isClear_append, hpage]

theorem references_repositorySkeleton :
    references (Text.splitLines c.repositorySkeleton) = [] := by
  have hinterface := refers_anchor (show interfaceSection ∈ _ from List.mem_cons_self)
  have hpage := c.isClear_pageClass
  rw [repositorySkeleton]
  refine Refers.joinLines (.skip refers_coreImport <| .clear ?_ <| .clear ?_ <|
    .skip hinterface <| .clear ?_ <| .clear ?_ .nil) (List.cons_ne_nil _ _)
  all_goals simp +decide [toString, isClear_append, hpage]

theorem references_repositoryImplSkeleton :
    references (Text.splitLines c.repositoryImplSkeleton) =
      ["../../domain/repositories/" ++ c.pageFile ++ "_repository.dart",
        "../datasources/" ++ c.pageFile ++ "_remote_data_source.dart"] := by
  have himplementation := refers_anchor
    (show implementationSection ∈ [interfaceSection, implementationSection] by decide)
  have hrepository : s!"import '../../domain/repositories/{c.pageFile}_repository.dart';" =
      importLine ("../../domain/repositories/" ++ c.pageFile ++ "_repository.dart") "" := by
    simp [importLine, toString, ← String.toList_inj]
  have hsource : s!"import '../datasources/{c.pageFile}_remote_data_source.dart';" =
      importLine ("../datasources/" ++ c.pageFile ++ "_remote_data_source.dart") "" := by
    simp [importLine, toString, ← String.toList_inj]
  have hpage := c.isClear_pageClass
  rw [repositoryImplSkeleton, hrepository, hsource]
  refine Refers.joinLines (.skip refers_coreImport <| .clear ?_ <|
    .cons (c.refers_pageFile (by decide) (by decide)) <|
    .cons (c.refers_pageFile (by decide) (by decide)) <| .clear ?_ <| .clear ?_ <| .clear ?_ <|
    .clear ?_ <| .clear ?_ <| .clear ?_ <| .clear ?_ <| .clear ?_ <| .skip himplementation <|
    .clear ?_ <| .clear ?_ .nil) (List.cons_ne_nil _ _)
  all_goals simp +decide [toString, isClear_append, hpage]

theorem references_useCase : references (Text.splitLines c.useCase) =
    ["../../data/models/body/" ++ c.apiFile ++ "_body.dart"] ++
      (if c.api.returnsModel then ["../entities/" ++ c.apiFile ++ "_entity.dart"] else []) ++
      ["../repositories/" ++ c.pageFile ++ "_repository.dart"] := by
  have hmodels := c.refers_modelImports "../../data/models/body" (some "../entities") (by decide)
    (by rintro directory ⟨⟩; decide)
  have hrepository : s!"import '../repositories/{c.pageFile}_repository.dart';" =
      importLine ("../repositories/" ++ c.pageFile ++ "_repository.dart") "" := by
    simp [importLine, toString, ← String.toList_inj]
  have hsignature := refers_of_isClear
    (c.isClear_signature c.isClear_eitherClass (show IsClear "call" by decide)
      (show IsClear " \x7b" by decide))
  have hforwarded := refers_of_isClear (c.isClear_forwarded (show IsClear "      " by decide))
  have hcall : IsClear s!"    return repository.{c.apiMethod}(" := by
    simp +decide [toString, isClear_append, c.isClear_apiMethod]
  have hend : ∀ line ∈ ["    );", "  \x7d", "\x7d", ""], IsClear line := by decide
  have hentity : IsClear c.entityClass := c.isClear_answerClass (by decide)
  have hbase : IsClear (if c.api.isStream then "StreamUseCase" else "UseCase") :=
    Dart.isClear_ite (by decide) (by decide)
  rw [useCase, hrepository]
  refine (Refers.joinLines ((((((Refers.append
    (.skip refers_coreImport <| .clear (by decide) .nil) hmodels).append
    (.cons (c.refers_pageFile (by decide) (by decide)) <| .clear ?_ <| .clear ?_ <| .clear ?_ <|
      .clear ?_ <| .clear ?_ <| .clear ?_ <| .clear ?_ <| .clear ?_ <| .clear ?_ .nil)).append
    hsignature).append (.clear hcall .nil)).append hforwarded).append (refers_of_isClear hend))
    (by simp)).trans ?_
  case refine_10 => simp
  all_goals
    simp +decide [toString, isClear_append, c.isClear_pageClass, c.isClear_apiClass, hentity,
      c.isClear_bodyClass, hbase]

theorem references_dataSource :
    references (c.dataSourceImports ++ Text.splitLines c.dataSourceSkeleton) =
      ["../models/body/" ++ c.apiFile ++ "_body.dart"] ++
        if c.api.returnsModel then ["../models/response/" ++ c.apiFile ++ "_response.dart"]
        else [] := by
  have hconvert : Refers ["import 'dart:convert';"] [] := ⟨by decide, by decide +kernel⟩
  have hmodels := c.refers_modelImports "../models/body" none (by decide) (by simp)
  have hresponse : s!"import '../models/response/{c.apiFile}_response.dart';" =
      importLine ("../models/response/" ++ c.apiFile ++ "_response.dart") "" := by
    simp [importLine, toString, ← String.toList_inj]
  have hfile : Refers [importLine ("../models/response/" ++ c.apiFile ++ "_response.dart") ""]
      ["../models/response/" ++ c.apiFile ++ "_response.dart"] :=
    c.refers_apiFile (by decide) (by decide)
  have himports := ((refers_ite_nil (p := (c.bodyList || c.responseList) = true) hconvert).append
    hmodels).append (refers_ite (p := c.api.returnsModel = true) hfile)
  rw [references_append, dataSourceImports, hresponse, himports.eq, references_dataSourceSkeleton,
    List.append_nil]
  simp

theorem references_repositoryImpl :
    references (c.repositoryImpl.imports ++ Text.splitLines c.repositoryImpl.skeleton) =
      ["../models/body/" ++ c.apiFile ++ "_body.dart"] ++
        (if c.api.returnsModel then ["../../domain/entities/" ++ c.apiFile ++ "_entity.dart"]
        else []) ++ (if c.api.returnsModel then ["../../mapper.dart"] else []) ++
        ["../../domain/repositories/" ++ c.pageFile ++ "_repository.dart",
          "../datasources/" ++ c.pageFile ++ "_remote_data_source.dart"] := by
  have hmodels := c.refers_modelImports "../models/body" (some "../../domain/entities") (by decide)
    (by rintro directory ⟨⟩; decide)
  have hmapper : Refers ["import '../../mapper.dart';"] ["../../mapper.dart"] :=
    ⟨by decide, by decide +kernel⟩
  have himports : Refers c.repositoryImpl.imports _ :=
    hmodels.append (refers_ite (p := c.api.returnsModel = true) hmapper)
  have hskeleton : references (Text.splitLines c.repositoryImpl.skeleton) = _ :=
    c.references_repositoryImplSkeleton
  rw [references_append, himports.eq, hskeleton]
  rfl

theorem references_repository :
    references (c.repository.imports ++ Text.splitLines c.repository.skeleton) =
      ["../../data/models/body/" ++ c.apiFile ++ "_body.dart"] ++
        if c.api.returnsModel then ["../entities/" ++ c.apiFile ++ "_entity.dart"] else [] := by
  have himports : Refers c.repository.imports _ :=
    c.refers_modelImports "../../data/models/body" (some "../entities") (by decide)
      (by rintro directory ⟨⟩; decide)
  have hskeleton : references (Text.splitLines c.repository.skeleton) = [] :=
    c.references_repositorySkeleton
  rw [references_append, himports.eq, hskeleton, List.append_nil]
  rfl

/-! ### Where they lead -/

/-- The page's files that the layers of an API refer to. -/
def bodyPath : String := "data/models/body/" ++ c.apiFile ++ "_body.dart"

def responsePath : String := "data/models/response/" ++ c.apiFile ++ "_response.dart"

def entityPath : String := "domain/entities/" ++ c.apiFile ++ "_entity.dart"

def sourcePath : String := "data/datasources/" ++ c.pageFile ++ "_remote_data_source.dart"

def implementationPath : String := "data/repositories/" ++ c.pageFile ++ "_repository_impl.dart"

def repositoryPath : String := "domain/repositories/" ++ c.pageFile ++ "_repository.dart"

theorem leadTo_useCase : LeadTo c.useCasePath (Text.splitLines c.useCase)
    ([c.bodyPath] ++ (if c.api.returnsModel then [c.entityPath] else []) ++
      [c.repositoryPath]) := by
  have hapi := Dart.isPlain_snakeCase c.api.name
  have hpage := Dart.isPlain_snakeCase c.page
  have hbody : resolve? c.useCasePath ("../../data/models/body/" ++ c.apiFile ++ "_body.dart") =
      some (Location.ofString c.bodyPath).parts :=
    resolve?_named hapi hapi (by decide) (by decide) (by decide)
  have hentity : resolve? c.useCasePath ("../entities/" ++ c.apiFile ++ "_entity.dart") =
      some (Location.ofString c.entityPath).parts :=
    resolve?_named hapi hapi (by decide) (by decide) (by decide)
  have hrepository : resolve? c.useCasePath ("../repositories/" ++ c.pageFile ++ "_repository.dart") =
      some (Location.ofString c.repositoryPath).parts :=
    resolve?_named hapi hpage (by decide) (by decide) (by decide)
  rw [LeadTo, references_useCase]
  cases c.api.returnsModel <;> simp [hbody, hentity, hrepository]

theorem leadTo_dataSource :
    LeadTo c.sourcePath (c.dataSourceImports ++ Text.splitLines c.dataSourceSkeleton)
      ([c.bodyPath] ++ if c.api.returnsModel then [c.responsePath] else []) := by
  have hapi := Dart.isPlain_snakeCase c.api.name
  have hpage := Dart.isPlain_snakeCase c.page
  have hbody : resolve? c.sourcePath ("../models/body/" ++ c.apiFile ++ "_body.dart") =
      some (Location.ofString c.bodyPath).parts :=
    resolve?_named hpage hapi (by decide) (by decide) (by decide)
  have hresponse :
      resolve? c.sourcePath ("../models/response/" ++ c.apiFile ++ "_response.dart") =
        some (Location.ofString c.responsePath).parts :=
    resolve?_named hpage hapi (by decide) (by decide) (by decide)
  rw [LeadTo, references_dataSource]
  cases c.api.returnsModel <;> simp [hbody, hresponse]

theorem leadTo_repositoryImpl :
    LeadTo c.repositoryImpl.relativePath
      (c.repositoryImpl.imports ++ Text.splitLines c.repositoryImpl.skeleton)
      ([c.bodyPath] ++ (if c.api.returnsModel then [c.entityPath, Mapper.fileName] else []) ++
        [c.repositoryPath, c.sourcePath]) := by
  have hapi := Dart.isPlain_snakeCase c.api.name
  have hpage := Dart.isPlain_snakeCase c.page
  have hbody : resolve? c.implementationPath
      ("../models/body/" ++ c.apiFile ++ "_body.dart") =
        some (Location.ofString c.bodyPath).parts :=
    resolve?_named hpage hapi (by decide) (by decide) (by decide)
  have hentity : resolve? c.implementationPath
      ("../../domain/entities/" ++ c.apiFile ++ "_entity.dart") =
        some (Location.ofString c.entityPath).parts :=
    resolve?_named hpage hapi (by decide) (by decide) (by decide)
  have hmapper : resolve? c.implementationPath "../../mapper.dart" =
      some (Location.ofString Mapper.fileName).parts := by
    have hpath : c.implementationPath =
        "data/repositories/" ++ (c.pageFile ++ "_repository_impl.dart") := String.append_assoc
    have href : "../../mapper.dart" = "../../" ++ "mapper.dart" := by decide
    have hname : Mapper.fileName = "" ++ "mapper.dart" := by decide
    rw [hpath, href, hname]
    exact resolve?_eq (by decide) (hpage.isFileName (by decide)) (by decide) (by decide) (by decide)
      (by decide)
  have hrepository : resolve? c.implementationPath
      ("../../domain/repositories/" ++ c.pageFile ++ "_repository.dart") =
        some (Location.ofString c.repositoryPath).parts :=
    resolve?_named hpage hpage (by decide) (by decide) (by decide)
  have hsource : resolve? c.implementationPath
      ("../datasources/" ++ c.pageFile ++ "_remote_data_source.dart") =
        some (Location.ofString c.sourcePath).parts :=
    resolve?_named hpage hpage (by decide) (by decide) (by decide)
  have hpath : c.repositoryImpl.relativePath = c.implementationPath := rfl
  rw [LeadTo, references_repositoryImpl, hpath]
  cases c.api.returnsModel <;> simp [hbody, hentity, hmapper, hrepository, hsource]

theorem leadTo_repository :
    LeadTo c.repository.relativePath
      (c.repository.imports ++ Text.splitLines c.repository.skeleton)
      ([c.bodyPath] ++ if c.api.returnsModel then [c.entityPath] else []) := by
  have hapi := Dart.isPlain_snakeCase c.api.name
  have hpage := Dart.isPlain_snakeCase c.page
  have hbody : resolve? c.repositoryPath
      ("../../data/models/body/" ++ c.apiFile ++ "_body.dart") =
        some (Location.ofString c.bodyPath).parts :=
    resolve?_named hpage hapi (by decide) (by decide) (by decide)
  have hentity : resolve? c.repositoryPath
      ("../entities/" ++ c.apiFile ++ "_entity.dart") =
        some (Location.ofString c.entityPath).parts :=
    resolve?_named hpage hapi (by decide) (by decide) (by decide)
  have hpath : c.repository.relativePath = c.repositoryPath := rfl
  rw [LeadTo, references_repository, hpath]
  cases c.api.returnsModel <;> simp [hbody, hentity]

/-! ### The classes that the layers name -/

theorem mentions_listOf (isList : Bool) (name : String) :
    Dart.Mentions (listOf isList name) name := by
  cases isList with
  | false => exact Dart.mentions_self name
  | true =>
      have hlist : listOf true name = "List<" ++ name ++ ">" := rfl
      rw [hlist]
      exact (Dart.mentions_self name).between (by decide) (by decide)

theorem mentions_answerClass (hmodel : c.api.returnsModel = true) (suffix : String) :
    Dart.Mentions (c.answerClass suffix) (c.apiClass ++ suffix) := by
  have hdata : c.api.returnData = .model := by simpa [Api.returnsModel] using hmodel
  rw [answerClass, hdata]
  exact mentions_listOf _ _

section Signature

variable {type name ending : String} {lines : List String}

theorem mentions_body (h : c.signature type name ending ⊆ lines) :
    Dart.Mentions (Text.joinLines lines) (c.apiClass ++ "Body") := by
  have hline : s!"    {c.bodyClass} body, \x7b" ∈ c.signature type name ending := by
    simp [signature]
  have hbody := (mentions_listOf c.bodyList (c.apiClass ++ "Body")).between
    (show Dart.isBefore "    " = true by decide) (show Dart.isAfter " body, \x7b" = true by decide)
  refine Dart.Mentions.joinLines ?_ (h hline)
  simpa [toString, bodyClass, String.append_assoc] using hbody

theorem mentions_type {model : String} (hmodel : Dart.Mentions type model)
    (h : c.signature type name ending ⊆ lines) :
    Dart.Mentions (Text.joinLines lines) model := by
  have hline : s!"  {type} {name}(" ∈ c.signature type name ending := by
    simp [signature]
  have hafter : Dart.isAfter (" " ++ name ++ "(") = true := by
    simp [Dart.isAfter, Dart.isNameChar]
  have htype := hmodel.between (show Dart.isBefore "  " = true by decide) hafter
  refine Dart.Mentions.joinLines ?_ (h hline)
  simpa [toString, String.append_assoc] using htype

end Signature

theorem mentions_eitherClass (hmodel : c.api.returnsModel = true) :
    Dart.Mentions c.eitherClass (c.apiClass ++ "Entity") := by
  have hbefore : Dart.isBefore (c.futureClass ++ "<Either<MorphemeFailure, ") = true := by
    simp [Dart.isBefore, Dart.isNameChar]
  have hentity := (c.mentions_answerClass hmodel "Entity").between hbefore
    (show Dart.isAfter ">>" = true by decide)
  simpa [eitherClass, entityClass, toString, String.append_assoc] using hentity

/-- The body's class and, for an answer with a model, the entity's. -/
theorem mentions_useCase : Dart.Mentions c.useCase (c.apiClass ++ "Body") ∧
    (c.api.returnsModel = true → Dart.Mentions c.useCase (c.apiClass ++ "Entity")) := by
  rw [useCase]
  generalize hlines : [coreImport, ""] ++ c.modelImports "../../data/models/body" (some "../entities")
    ++ _ ++ c.signature c.eitherClass "call" " \x7b" ++ _ ++ _ ++ _ = lines
  have hsub : c.signature c.eitherClass "call" " \x7b" ⊆ lines := by
    rw [← hlines]
    simp only [List.append_assoc]
    intro line hline
    simp [hline]
  exact ⟨c.mentions_body hsub, fun hmodel => c.mentions_type (c.mentions_eitherClass hmodel) hsub⟩

theorem mentions_repositoryImpl :
    (∃ code ∈ c.repositoryImpl.blocks.map Prod.snd, Dart.Mentions code (c.apiClass ++ "Body")) ∧
    (c.api.returnsModel = true →
      ∃ code ∈ c.repositoryImpl.blocks.map Prod.snd, Dart.Mentions code (c.apiClass ++ "Entity")) := by
  have hsub : c.signature c.eitherClass c.apiMethod c.asyncEnding ⊆
      ["  @override"] ++ c.signature c.eitherClass c.apiMethod c.asyncEnding ++ c.repositoryBody ++
        ["  \x7d"] := by
    intro line hline
    simp [hline]
  exact ⟨⟨_, List.mem_cons_self, c.mentions_body hsub⟩, fun hmodel =>
    ⟨_, List.mem_cons_self, c.mentions_type (c.mentions_eitherClass hmodel) hsub⟩⟩

theorem mentions_repository :
    (∃ code ∈ c.repository.blocks.map Prod.snd, Dart.Mentions code (c.apiClass ++ "Body")) ∧
    (c.api.returnsModel = true →
      ∃ code ∈ c.repository.blocks.map Prod.snd, Dart.Mentions code (c.apiClass ++ "Entity")) := by
  have hblocks : c.repository.blocks.map Prod.snd =
      [Text.joinLines (c.signature c.eitherClass c.apiMethod ";")] := rfl
  have hsub := List.Subset.refl (c.signature c.eitherClass c.apiMethod ";")
  rw [hblocks]
  exact ⟨⟨_, List.mem_cons_self, c.mentions_body hsub⟩, fun hmodel =>
    ⟨_, List.mem_cons_self, c.mentions_type (c.mentions_eitherClass hmodel) hsub⟩⟩

/-- The head of the data source's method. -/
theorem mentions_dataSource {code : String} (hcode : code = Text.joinLines
    (c.signature s!"{c.futureClass}<{c.responseClass}>" c.apiMethod ";")) :
    Dart.Mentions code (c.apiClass ++ "Body") ∧
    (c.api.returnsModel = true → Dart.Mentions code (c.apiClass ++ "Response")) := by
  have hsub := List.Subset.refl
    (c.signature s!"{c.futureClass}<{c.responseClass}>" c.apiMethod ";")
  subst hcode
  refine ⟨c.mentions_body hsub, fun hmodel => c.mentions_type ?_ hsub⟩
  have hbefore : Dart.isBefore (c.futureClass ++ "<") = true := by
    simp [Dart.isBefore, Dart.isNameChar]
  have hresponse := (c.mentions_answerClass hmodel "Response").between hbefore
    (show Dart.isAfter ">" = true by decide)
  simpa [responseClass, toString, String.append_assoc] using hresponse

end Layer.Context

end DartScaffold
