import DartScaffold.Proofs.Aggregate.Merge
import DartScaffold.Proofs.Text.Spelling
import DartScaffold.Proofs.Validation.Name

/-!
The names of APIs in files. A name that is accepted is an identifier, and so it can stand in a marker: the
marker is one line, and tells of the section and the API it was written for. But the check lets a line feed
at the end of the name pass, and there the marker takes a second line and tells of another API.
-/

namespace DartScaffold.Validation

open Aggregate

/-- An ASCII letter, then ASCII letters, digits and underscores. -/
def IsIdentifier (name : String) : Prop :=
  name.toList.head?.any Char.isAlpha = true ∧
    ∀ c ∈ name.toList, (c.isAlphanum || c == '_') = true

instance (name : String) : Decidable (IsIdentifier name) :=
  decidable_of_iff (name.toList.head?.any Char.isAlpha = true ∧
    name.toList.all (fun c => c.isAlphanum || c == '_') = true)
    (by rw [IsIdentifier, List.all_eq_true])

/-! ### Names that are accepted -/

theorem isApiName_eq_true_iff {name : String} :
    isApiName name = true ↔ name.toList.head?.any Char.isAlpha = true ∧
      (name.toList.dropWhile (fun c => c.isAlphanum || c == '_') = [] ∨
        name.toList.dropWhile (fun c => c.isAlphanum || c == '_') = ['\n']) := by
  rw [isApiName]
  cases name.toList with
  | nil => simp
  | cons c rest =>
      cases hc : c.isAlpha with
      | false => simp [hc]
      | true =>
          have hword : (c.isAlphanum || c == '_') = true := by simp [Char.isAlphanum, hc]
          rw [List.dropWhile_cons_of_pos (p := fun c => c.isAlphanum || c == '_') hword]
          dsimp only
          split <;> simp_all

/-- The check looks for the end of the name, or for a line feed that ends it. -/
theorem isApiName_iff {name : String} : isApiName name = true ↔
    ∃ ident, IsIdentifier ident ∧ (name = ident ∨ name = ident ++ "\n") := by
  rw [isApiName_eq_true_iff]
  constructor
  · rintro ⟨hhead, hrest⟩
    have hsplit := @List.takeWhile_append_dropWhile _ (fun c => c.isAlphanum || c == '_') name.toList
    refine ⟨String.ofList (name.toList.takeWhile fun c => c.isAlphanum || c == '_'), ⟨?_, ?_⟩, ?_⟩
    · rw [String.toList_ofList]
      cases hname : name.toList with
      | nil => simp [hname] at hhead
      | cons c rest =>
          have hc : c.isAlpha = true := by simpa [hname] using hhead
          simp [Char.isAlphanum, hc]
    · rw [String.toList_ofList]
      exact fun c => Text.of_mem_takeWhile (p := fun c => c.isAlphanum || c == '_')
    · refine hrest.imp (fun hnone => ?_) (fun hfeed => ?_)
      · rw [hnone, List.append_nil] at hsplit
        rw [hsplit, String.ofList_toList]
      · rw [hfeed] at hsplit
        rw [← String.toList_inj, String.toList_append, String.toList_ofList]
        exact hsplit.symm
  · rintro ⟨ident, ⟨hhead, hall⟩, rfl | rfl⟩
    · exact ⟨hhead, .inl (List.dropWhile_eq_nil_iff.mpr hall)⟩
    · refine ⟨Dart.head?_any_append hhead "\n", .inr ?_⟩
      rw [String.toList_append]
      exact Text.dropWhile_append_stop hall (by simp)

/-- What is accepted as the name of an API. -/
theorem isValid_nameIssues_iff {name : String} : (nameIssues (.str name)).isValid = true ↔
    (∃ ident, IsIdentifier ident ∧ (name = ident ∨ name = ident ++ "\n")) ∧
      Text.camelCase name ∉ Dart.keywords := by
  rw [nameIssues, isValid_map_issue, harmless_nameFaults_iff, isApiName_iff]

/-! ### Names in markers -/

theorem IsIdentifier.isApiId {ident : String} (h : IsIdentifier ident) : IsApiId ident := by
  obtain ⟨hhead, hall⟩ := h
  constructor
  · intro hnil
    simp [hnil] at hhead
  · intro c hc
    rcases Bool.or_eq_true_iff.mp (hall c hc) with halnum | hunderscore
    · exact Text.forall_isAlphanum (P := fun c => Text.isBlank c = false) (by decide +kernel) halnum
    · obtain rfl := eq_of_beq hunderscore
      decide

theorem isApiId_of_isApiName {name : String} (h : isApiName name = true)
    (hline : '\n' ∉ name.toList) : IsApiId name := by
  obtain ⟨ident, hident, rfl | rfl⟩ := isApiName_iff.mp h
  · exact hident.isApiId
  · simp at hline

/-- The lines of a file with this text, as they are read. -/
def readLines (text : String) : List String :=
  Text.splitLines (String.ofList (Text.normalizeNewlines text.toList))

theorem readLines_eq {text : String} (h : '\r' ∉ text.toList) :
    readLines text = Text.splitLines text := by
  rw [readLines, Text.normalizeNewlines_of_not_mem h, String.ofList_toList]

theorem readLines_of_forall {line : String} (h : ∀ c, IsLineBreak c → c ∉ line.toList) :
    readLines line = [line] := by
  rw [readLines_eq (h _ (.inr rfl))]
  have hsplit := @Text.splitLines_joinLines [line] (by simp) (by simpa using h _ (.inl rfl))
  simpa [Text.joinLines] using hsplit

theorem readLines_append_feed {line : String} (h : ∀ c, IsLineBreak c → c ∉ line.toList) :
    readLines (line ++ "\n") = [line, ""] := by
  have hreturn := h _ (.inr rfl)
  rw [readLines_eq (by simpa using hreturn)]
  have hsplit := @Text.splitLines_joinLines [line, ""] (by simp)
    (by simpa using h _ (.inl rfl))
  simpa [Text.joinLines] using hsplit

/-- What a file holds where the block of the API `name` in the section `part` begins and ends: one line,
which is read as a marker of the section and of `ident`, and then the lines `rest`. -/
structure MarkedAs (name ident : String) (rest : List String) (part indent : String) : Prop where
  beginLines : readLines (indent ++ beginMarker part name) = (indent ++ beginMarker part ident) :: rest
  endLines : readLines (indent ++ endMarker part name) = (indent ++ endMarker part ident) :: rest
  begins : begin? (indent ++ beginMarker part name) = some (indent, ⟨part, ident⟩)
  ends : end? (indent ++ endMarker part name) = some ⟨part, ident⟩

section Markers

variable {part indent ident : String}

theorem IsIdentifier.valid (hident : IsIdentifier ident) (hpart : IsPartName part) :
    BlockKey.Valid ⟨part, ident⟩ :=
  ⟨hpart, hident.isApiId⟩

theorem IsIdentifier.not_mem_markers (hident : IsIdentifier ident) (hpart : IsPartName part)
    (hindent : ∀ c ∈ indent.toList, ¬ IsLineBreak c) :
    (∀ c, IsLineBreak c → c ∉ (indent ++ beginMarker part ident).toList) ∧
      ∀ c, IsLineBreak c → c ∉ (indent ++ endMarker part ident).toList := by
  have hkey := hident.valid hpart
  constructor
  · intro c hc
    rw [String.toList_append, List.mem_append, not_or]
    exact ⟨fun hmem => hindent c hmem hc, not_mem_beginMarker hkey hc⟩
  · intro c hc
    rw [String.toList_append, List.mem_append, not_or]
    exact ⟨fun hmem => hindent c hmem hc, not_mem_endMarker hkey hc⟩

theorem IsIdentifier.markedAs (hident : IsIdentifier ident) (hpart : IsPartName part)
    (hblank : IsIndent indent) (hindent : ∀ c ∈ indent.toList, ¬ IsLineBreak c) :
    MarkedAs ident ident [] part indent := by
  have hkey := hident.valid hpart
  obtain ⟨hbegin, hend⟩ := hident.not_mem_markers hpart hindent
  exact ⟨readLines_of_forall hbegin, readLines_of_forall hend,
    @begin?_beginMarker indent ⟨part, ident⟩ hblank hkey,
    @end?_endMarker indent ⟨part, ident⟩ hblank hkey⟩

/-- The line feed ends the marker, and is a blank after it. -/
theorem IsIdentifier.markedAs_feed (hident : IsIdentifier ident) (hpart : IsPartName part)
    (hblank : IsIndent indent) (hindent : ∀ c ∈ indent.toList, ¬ IsLineBreak c) :
    MarkedAs (ident ++ "\n") ident [""] part indent := by
  have hkey := hident.valid hpart
  obtain ⟨hbegin, hend⟩ := hident.not_mem_markers hpart hindent
  have hbegin_feed : indent ++ beginMarker part (ident ++ "\n") =
      indent ++ beginMarker part ident ++ "\n" := by
    simp [beginMarker, String.append_assoc]
  have hend_feed : indent ++ endMarker part (ident ++ "\n") =
      indent ++ endMarker part ident ++ "\n" := by
    simp [endMarker, String.append_assoc]
  have hfeed : ∀ c ∈ "\n".toList, Text.isBlank c = true := by simp [Text.isBlank]
  constructor
  · rw [hbegin_feed]
    exact readLines_append_feed hbegin
  · rw [hend_feed]
    exact readLines_append_feed hend
  · exact begin?_eq_some_iff.mpr ⟨hblank, hkey, "\n".toList, hfeed, by simp [toList_beginMarker]⟩
  · exact end?_eq_some_iff.mpr ⟨hkey, indent, "\n", hblank, hfeed, by simp [toList_endMarker]⟩

end Markers

/-- A name that is accepted is an identifier, and its markers are single lines that are read as they were
written; or it is an identifier and a line feed, and its markers are read as those of the identifier, with
an empty line after each. -/
theorem markedAs_of_accepted {name : String} (hname : (nameIssues (.str name)).isValid = true) :
    (IsIdentifier name ∧ ∀ part indent : String, IsPartName part → IsIndent indent →
      (∀ c ∈ indent.toList, ¬ IsLineBreak c) → MarkedAs name name [] part indent) ∨
    ∃ ident, IsIdentifier ident ∧ name = ident ++ "\n" ∧
      ∀ part indent : String, IsPartName part → IsIndent indent →
        (∀ c ∈ indent.toList, ¬ IsLineBreak c) → MarkedAs name ident [""] part indent := by
  obtain ⟨⟨ident, hident, rfl | rfl⟩, -⟩ := isValid_nameIssues_iff.mp hname
  · exact .inl ⟨hident, fun part indent => hident.markedAs⟩
  · exact .inr ⟨ident, hident, rfl, fun part indent => hident.markedAs_feed⟩

theorem markedAs_of_accepted_get_user : (nameIssues (.str "get_user")).isValid = true ∧
    IsIdentifier "get_user" ∧ MarkedAs "get_user" "get_user" [] "implementation" "  " := by
  have hname : (nameIssues (.str "get_user")).isValid = true := by decide +kernel
  refine ⟨hname, ?_⟩
  rcases markedAs_of_accepted hname with ⟨hident, hmarks⟩ | ⟨ident, -, heq, -⟩
  · exact ⟨hident, hmarks "implementation" "  " (by decide +kernel)
      (by simp [IsIndent, Text.isBlank]) (by simp [IsLineBreak])⟩
  · have hfeed : '\n' ∈ "get_user".toList := by simp [heq]
    exact absurd hfeed (by decide)

/-- The name `get_user` with a line feed after it is accepted, and its marker is that of `get_user`. -/
theorem accepted_with_line_feed : (nameIssues (.str "get_user\n")).isValid = true ∧
    ¬ IsIdentifier "get_user\n" ∧
    readLines (beginMarker "implementation" "get_user\n") =
      ["// json2dart:begin implementation:get_user", ""] ∧
    begin? (beginMarker "implementation" "get_user\n") =
      some ("", ⟨"implementation", "get_user"⟩) := by
  decide +kernel

end DartScaffold.Validation
