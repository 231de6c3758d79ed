import DartScaffold.Mapper
import DartScaffold.Proofs.Dart.Line

/-!
What a reader sees of a mapper block: its extensions, each with the class that it is on, the class that
it makes and the arguments of the constructor that it calls. All names in the block are plain, and no
line of it comes from a key, so reading gives back what was written.
-/

namespace DartScaffold.Mapper

open Dart (Field IsClear IsPlain isClear_append)

structure Extension where
  name : String
  target : String
  method : String
  /-- What the method promises to answer. -/
  result : String
  /-- The class whose constructor it calls. -/
  built : String
  arguments : List String
  deriving DecidableEq

/-- The name in a line of an argument, which stands before a colon. -/
def argument? (line : String) : Option String :=
  if "        ".toList.isPrefixOf line.toList then
    some (String.ofList ((line.toList.drop "        ".length).takeWhile (· != ':')))
  else none

/-- What a constructor call calls. -/
def callee (call : String) : String :=
  String.ofList (call.toList.takeWhile (· != '('))

def readExtension : List String → Option Extension
  | heading :: signature :: rest =>
    match Text.spaced heading, Text.spaced signature with
    | ["extension", name, "on", target, "\x7b"], "" :: "" :: result :: method :: "=>" :: call =>
      some { name, target, method, result
             built := callee (call.getLastD "")
             arguments := rest.filterMap argument? }
    | _, _ => none
  | _ => none

/-- The extensions of a block. They stand apart by blank lines. -/
def readBlock (block : String) : List (Option Extension) :=
  ((Text.splitLines block).splitOn "").map readExtension

/-! ### Lines -/

/-- The lines of one extension. -/
def extensionLines (name target result method : String) (fields : List Field) : List String :=
  ("extension " ++ name ++ " on " ++ target ++ " \x7b") ::
    (conversionLines result method fields ++ ["\x7d"])

theorem extensionText_eq (onResponse onEntity response entity : String) (fields : List Field) :
    extensionText onResponse onEntity response entity fields =
      "\n\n".intercalate
        ([extensionLines onResponse response entity "toEntity" fields,
          extensionLines onEntity entity response "toResponse" fields].map Text.joinLines) := by
  rw [← Text.joinLines_paragraphs (by simp [extensionLines])]
  simp [extensionText, extensionLines, Text.joinLines, toString]

theorem isClear_elementConverted {method : String} (h : IsPlain method) {shape : Shape}
    {text : String} (htext : Model.elementConverted method shape = some text) : IsClear text := by
  have hmethod := h.isClear
  induction shape using Shape.unwrapped.induct generalizing text with
  | case1 element ih =>
      rw [Model.elementConverted, Option.map_eq_some_iff] at htext
      obtain ⟨inner, hinner, rfl⟩ := htext
      simp +decide [toString, isClear_append, ih hinner]
  | case2 shape hlist =>
      cases shape with
      | scalar kind => simp [Model.elementConverted] at htext
      | list element => exact absurd rfl (hlist element)
      | object fields =>
          obtain rfl := Option.some.inj htext
          simp +decide [toString, isClear_append, hmethod]

theorem isClear_fieldConverted {method name : String} (h : IsPlain method) (hname : IsPlain name)
    (shape : Shape) : IsClear (Model.fieldConverted method shape name) := by
  have hmethod := h.isClear
  have hline := hname.isClear
  cases shape with
  | scalar kind => exact hline
  | object fields => simp +decide [Model.fieldConverted, toString, isClear_append, hmethod, hline]
  | list element =>
      rw [Model.fieldConverted]
      cases helement : Model.elementConverted method element with
      | none => exact hline
      | some text =>
          have htext := isClear_elementConverted h helement
          simp +decide [toString, isClear_append, hline, htext]

theorem argument?_argument {name : String} (h : IsPlain name) (value : String) :
    argument? ("        " ++ name ++ ": " ++ value ++ ",") = some name := by
  have hline : ("        " ++ name ++ ": " ++ value ++ ",").toList =
      "        ".toList ++ (name.toList ++ ':' :: (' ' :: value.toList ++ [','])) := by
    simp
  have hdrop : ("        ".toList ++ (name.toList ++ ':' :: (' ' :: value.toList ++ [',']))).drop
      "        ".length = name.toList ++ ':' :: (' ' :: value.toList ++ [',']) := List.drop_left
  rw [argument?, hline, if_pos (by simp), hdrop, h.takeWhile_ne (by decide) (by decide)]

/-- The line of one argument. -/
def argumentLine (method : String) (f : Field) : String :=
  "        " ++ f.name ++ ": " ++ Model.fieldConverted method f.shape f.name ++ ","

theorem conversionLines_eq (result method : String) (fields : List Field) :
    conversionLines result method fields =
      if fields = [] then ["  " ++ result ++ " " ++ method ++ "() => const " ++ result ++ "();"]
      else ("  " ++ result ++ " " ++ method ++ "() => " ++ result ++ "(") ::
        (fields.map (argumentLine method) ++ ["      );"]) := by
  cases fields with
  | nil => rfl
  | cons f fields => simp [conversionLines, argumentLine, toString]

theorem filterMap_argument? {method : String} {fields : List Field}
    (h : ∀ f ∈ fields, IsPlain f.name) :
    (fields.map (argumentLine method) ++ ["      );", "\x7d"]).filterMap argument? =
      fields.map Field.name := by
  have hend : ["      );", "\x7d"].filterMap argument? = [] := by decide
  rw [List.filterMap_append, hend, List.append_nil]
  induction fields with
  | nil => rfl
  | cons f fields ih =>
      obtain ⟨hf, hfields⟩ := List.forall_mem_cons.mp h
      have hline : argument? (argumentLine method f) = some f.name := argument?_argument hf _
      rw [List.map_cons, List.filterMap_cons_some hline, ih hfields]
      rfl

theorem callee_call {name : String} (h : IsPlain name) (rest : String) :
    callee (name ++ "(" ++ rest) = name := by
  have hcall : (name ++ "(" ++ rest).toList = name.toList ++ '(' :: rest.toList := by simp
  rw [callee, hcall, h.takeWhile_ne (by decide) (by decide)]

section Lines

variable {name target result method : String} {fields : List Field}

theorem spaced_heading (hname : IsPlain name) (htarget : IsPlain target) :
    Text.spaced ("extension " ++ name ++ " on " ++ target ++ " \x7b") =
      ["extension", name, "on", target, "\x7b"] := by
  have hline : "extension " ++ name ++ " on " ++ target ++ " \x7b" =
      " ".intercalate ["extension", name, "on", target, "\x7b"] := by
    simp [← String.toList_inj]
  rw [hline]
  exact Text.spaced_intercalate (by simp) (by simp [hname.space_not_mem, htarget.space_not_mem])

theorem spaced_signature (hresult : IsPlain result) (hmethod : IsPlain method) (call : List String)
    (hcall : ∀ part ∈ call, ' ' ∉ part.toList) :
    Text.spaced (" ".intercalate ("" :: "" :: result :: (method ++ "()") :: "=>" :: call)) =
      "" :: "" :: result :: (method ++ "()") :: "=>" :: call := by
  refine Text.spaced_intercalate (by simp) ?_
  simpa [hresult.space_not_mem, hmethod.space_not_mem] using hcall

theorem readExtension_extensionLines (hname : IsPlain name) (htarget : IsPlain target)
    (hresult : IsPlain result) (hmethod : IsPlain method) (hfields : ∀ f ∈ fields, IsPlain f.name) :
    readExtension (extensionLines name target result method fields) =
      some { name, target, method := method ++ "()", result, built := result
             arguments := fields.map Field.name } := by
  rw [extensionLines, conversionLines_eq]
  by_cases hempty : fields = []
  · have hline : "  " ++ result ++ " " ++ method ++ "() => const " ++ result ++ "();" =
        " ".intercalate ("" :: "" :: result :: (method ++ "()") :: "=>" ::
          ["const", result ++ "();"]) := by
      simp [← String.toList_inj]
    have hsignature := spaced_signature hresult hmethod ["const", result ++ "();"]
      (by simp [hresult.space_not_mem])
    rw [if_pos hempty, hempty, hline]
    simp only [List.cons_append, List.nil_append, readExtension, spaced_heading hname htarget,
      hsignature]
    have hcallee : callee (result ++ "();") = result := by
      simpa [String.append_assoc] using callee_call hresult ");"
    have hclosing : argument? "\x7d" = none := by decide
    simp [hcallee, hclosing]
  · have hline : "  " ++ result ++ " " ++ method ++ "() => " ++ result ++ "(" =
        " ".intercalate ("" :: "" :: result :: (method ++ "()") :: "=>" :: [result ++ "("]) := by
      simp [← String.toList_inj]
    have hsignature := spaced_signature hresult hmethod [result ++ "("]
      (by simp [hresult.space_not_mem])
    have hcallee : callee (result ++ "(") = result := by
      simpa using callee_call hresult ""
    rw [if_neg hempty, hline]
    simp only [List.cons_append, List.append_assoc, List.nil_append, readExtension,
      spaced_heading hname htarget, hsignature, filterMap_argument? hfields]
    simp [hcallee]

theorem isClear_extensionLines (hname : IsPlain name) (htarget : IsPlain target)
    (hresult : IsPlain result) (hmethod : IsPlain method) (hfields : ∀ f ∈ fields, IsPlain f.name) :
    ∀ line ∈ extensionLines name target result method fields, IsClear line := by
  have hconversion : ∀ line ∈ conversionLines result method fields, IsClear line := by
    rw [conversionLines_eq]
    split
    · simp +decide [isClear_append, hresult.isClear, hmethod.isClear]
    · simp only [List.forall_mem_cons, List.forall_mem_append, List.forall_mem_map]
      refine ⟨?_, fun f hf => ?_, ?_⟩
      · simp +decide [isClear_append, hresult.isClear, hmethod.isClear]
      · have hvalue := isClear_fieldConverted hmethod (hfields f hf) f.shape
        simp +decide [argumentLine, isClear_append, (hfields f hf).isClear, hvalue]
      · exact ⟨by decide, by simp⟩
  refine List.forall_mem_cons.mpr ⟨?_, List.forall_mem_append.mpr ⟨hconversion, by decide⟩⟩
  simp +decide [isClear_append, hname.isClear, htarget.isClear]

/-- No line is blank, so the extension is one paragraph. -/
theorem blank_not_mem_extensionLines : "" ∉ extensionLines name target result method fields := by
  have hconversion : "" ∉ conversionLines result method fields := by
    rw [conversionLines_eq]
    split
    · simp [← String.toList_inj]
    · simp [← String.toList_inj, argumentLine]
  simp [extensionLines, hconversion, ← String.toList_inj]

end Lines

/-! ### Blocks -/

theorem readBlock_paragraphs {paragraphs : List (List String)} (hne : paragraphs ≠ [])
    (hblank : ∀ p ∈ paragraphs, "" ∉ p) (hempty : ∀ p ∈ paragraphs, p ≠ [])
    (hlines : ∀ p ∈ paragraphs, ∀ line ∈ p, '\n' ∉ line.toList) :
    readBlock ("\n\n".intercalate (paragraphs.map Text.joinLines)) =
      paragraphs.map readExtension := by
  have hjoined : [""].intercalate paragraphs ≠ [] := Text.intercalate_ne_nil hne hempty
  have hall : ∀ line ∈ [""].intercalate paragraphs, '\n' ∉ line.toList := by
    intro line hline
    rcases Text.mem_of_mem_intercalate hline with hsep | ⟨p, hp, hline⟩
    · obtain rfl := List.mem_singleton.mp hsep
      decide
    · exact hlines p hp line hline
  rw [readBlock, ← Text.joinLines_paragraphs hempty, Text.splitLines_joinLines hjoined hall,
    List.splitOn_intercalate "" hblank hne]

end DartScaffold.Mapper
