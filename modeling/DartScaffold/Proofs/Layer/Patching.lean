import DartScaffold.Proofs.Aggregate.Idempotence
import DartScaffold.Proofs.Aggregate.NonInterference
import DartScaffold.Proofs.Layer.WellFormed
import DartScaffold.Proofs.Validation.Identifier

/-!
Data sources in their files. However an API is called and whatever headers it sends, its data source is
found again as it was written, beside the others as they were, and writing it again changes nothing; but
a header with a line break can end the block before its time.
-/

namespace DartScaffold

open Aggregate (BlockKey Document Fragment IsApiId Node patch)
open Disk (Location WriteMode)

namespace Layer.Context

variable {c : Context} {f : Fragment}

/-- There is a data source, unless a list is to give the parameters of the path. -/
theorem dataSource_cases (c : Context) : (∃ f, c.dataSource = .ok f) ∨
    c.bodyList = true ∧ c.api.pathParams ≠ [] ∧ c.dataSource = .error (.config .paramsNeedObject
      [("api", .str c.api.name), ("path", .str c.api.path)]) := by
  have hendpoint : (∃ text, c.endpoint = .ok text) ∨ c.bodyList = true ∧ c.api.pathParams ≠ [] ∧
      c.endpoint = .error (.config .paramsNeedObject
        [("api", .str c.api.name), ("path", .str c.api.path)]) := by
    rw [endpoint]
    dsimp only
    split
    · exact .inl ⟨_, rfl⟩
    · rename_i hparams
      split
      · rename_i hlist
        exact .inr ⟨hlist, by simpa using hparams, rfl⟩
      · exact .inl ⟨_, rfl⟩
  rw [dataSource, dataSourceBody, httpArguments]
  obtain ⟨text, hok⟩ | ⟨hlist, hparams, herror⟩ := hendpoint
  · rw [hok]
    cases c.api.isStream with
    | true => exact .inl ⟨_, rfl⟩
    | false => exact .inl ⟨_, rfl⟩
  · rw [herror]
    exact .inr ⟨hlist, hparams, rfl⟩

theorem api_of_dataSource (hf : c.dataSource = .ok f) : f.api = c.api.name := by
  rw [dataSource] at hf
  cases hbody : c.dataSourceBody with
  | error failure =>
      rw [hbody] at hf
      contradiction
  | ok body =>
      rw [hbody] at hf
      obtain rfl := Except.ok.inj hf
      rfl

/-- The implementation holds the call, and ends in a brace. -/
theorem exists_implementation (hf : c.dataSource = .ok f) :
    ∃ front call, c.dataSourceBody = .ok call ∧
      (implementationSection, Text.joinLines (front ++ call ++ ["  \x7d"])) ∈ f.blocks := by
  rw [dataSource] at hf
  cases hbody : c.dataSourceBody with
  | error failure =>
      rw [hbody] at hf
      contradiction
  | ok call =>
      rw [hbody] at hf
      obtain rfl := Except.ok.inj hf
      exact ⟨_, call, rfl, List.mem_cons_of_mem _ List.mem_cons_self⟩

end Layer.Context

/-! ### The file of a page -/

namespace Aggregate

/-- No line of a block in a file closes it early. -/
theorem Document.Faithful.isBody {d : Document} (h : d.Faithful) {key : BlockKey} {first last : String}
    {body : List String} (hmem : .block key first body last ∈ d) : IsBody key body := by
  induction h with
  | nil => contradiction
  | @line line d _ _ ih =>
      obtain hline | hmem := List.mem_cons.mp hmem
      · have hkey := congrArg Node.key? hline
        simp at hkey
      · exact ih hmem
  | block hblock _ ih =>
      obtain hsame | hmem := List.mem_cons.mp hmem
      · cases hsame
        exact hblock.body
      · exact ih hmem

/-- Blocks of other APIs, and anchors. -/
def Node.isForeign (api : String) : Node → Bool
  | .block key _ _ _ => key.api != api
  | .anchor _ _ _ => true
  | _ => false

theorem Node.isForeign_of_isBlockOf {api : String} {node : Node} (h : node.isBlockOf api = true) :
    node.isForeign api = false := by
  cases node with
  | block key first body last => simpa [isBlockOf, isForeign] using h
  | _ => contradiction

theorem filter_isForeign_mergeText {f : Fragment} (hf : f.WellFormed) (existing : Option String) :
    (Document.parse (mergeText existing f).1).filter (Node.isForeign f.api) =
      (Document.parse (existing.getD f.skeleton)).filter (Node.isForeign f.api) := by
  rw [Document.parse_mergeText hf]
  refine (mergedFrom_merge (Document.sound_parse _) hf).filter_eq rfl (fun node key hkey => ?_)
    fun node => Node.isForeign_of_isBlockOf
  cases node with
  | directive line => rfl
  | _ => contradiction

/-- After a merge the first block of each section is the one of the fragment, line by line. -/
theorem firstBlock?_mergeText {f : Fragment} (hf : f.WellFormed) (existing : Option String)
    {block : String × String} (hblock : block ∈ f.blocks)
    (hend : ∀ c ∈ block.2.toList.getLast?, c ≠ '\n') :
    ∃ first last, (Document.parse (mergeText existing f).1).firstBlock? ⟨block.1, f.api⟩ =
      some (.block ⟨block.1, f.api⟩ first (Text.splitLines block.2) last) := by
  have hholds := Document.holds_merge hf (Document.sound_parse (existing.getD f.skeleton))
  obtain ⟨indent, -, hfirst⟩ := hholds.blocks block hblock
  rw [makeBlock_eq, blockBody_eq hend] at hfirst
  rw [Document.parse_mergeText hf]
  exact ⟨_, _, hfirst⟩

theorem mergeText_mergeText {f : Fragment} (hf : f.WellFormed) (existing : Option String) :
    mergeText (some (mergeText existing f).1) f = ((mergeText existing f).1, []) := by
  refine Document.mergeText_of_holds hf ?_
  rw [Document.parse_mergeText hf]
  exact Document.holds_merge hf (Document.sound_parse _)

end Aggregate

namespace Layer.Context

open Aggregate (mergeText)

variable {c : Context}

/-- The data source of an accepted API whose headers have no line breaks can be put into any file. It is
read back there as it was made, the blocks of other APIs and the anchors are as before, and putting it in
again changes nothing. -/
theorem patch_dataSource {name : String} {raw : Json} {context : Entries}
    {warnings : List Validation.Issue}
    (hbuilt : Validation.buildApi (.str name) raw context = .ok (warnings, .ok c.api))
    (hname : '\n' ∉ name.toList) (hheaders : c.Unbroken) :
    ((∃ f, c.dataSource = .ok f) ∨ c.bodyList = true ∧ c.api.pathParams ≠ [] ∧
      c.dataSource = .error (.config .paramsNeedObject
        [("api", .str c.api.name), ("path", .str c.api.path)])) ∧
    ∀ f, c.dataSource = .ok f → ∃ body, (implementationSection, body) ∈ f.blocks ∧
      ∀ existing, ∃ merged, (mergeText existing f).1 = merged ∧
        (∃ first last, (Document.parse merged).firstBlock? ⟨implementationSection, name⟩ =
          some (.block ⟨implementationSection, name⟩ first (Text.splitLines body) last)) ∧
        (Document.parse merged).filter (Node.isForeign name) =
          (Document.parse (existing.getD f.skeleton)).filter (Node.isForeign name) ∧
        mergeText (some merged) f = (merged, []) ∧
        ∀ (disk : Disk) (mode : WriteMode) (place : Location),
          disk.textIfFile place = .ok existing → disk.Writable mode place →
          ∃ told saved again disk', patch disk mode place (.same f) = (told, .ok saved, disk') ∧
            disk'.textIfFile place = .ok (some merged) ∧
            patch disk' mode place (.same f) = ([], .ok again, disk') ∧ again.changed = false := by
  obtain ⟨hapi, hvalid⟩ := Validation.name_of_buildApi hbuilt
  have hid : IsApiId c.api.name := hapi ▸ Validation.isApiId_of_isApiName hvalid hname
  refine ⟨c.dataSource_cases, fun f hsource => ?_⟩
  have hf := c.wellFormed_dataSource hid hheaders hsource
  have hown : f.api = name := (api_of_dataSource hsource).trans hapi
  obtain ⟨front, call, -, hbody⟩ := exists_implementation hsource
  refine ⟨_, hbody, fun existing => ⟨_, rfl, ?_, ?_, Aggregate.mergeText_mergeText hf existing, ?_⟩⟩
  · have hend : ∀ d ∈ (Text.joinLines (front ++ call ++ ["  \x7d"])).toList.getLast?, d ≠ '\n' := by
      obtain ⟨start, hstart⟩ := Text.toList_joinLines_concat (front ++ call) "  \x7d"
      rw [hstart, List.getLast?_append]
      rintro d ⟨⟩
      decide
    rw [← hown]
    exact Aggregate.firstBlock?_mergeText hf existing hbody hend
  · rw [← hown]
    exact Aggregate.filter_isForeign_mergeText hf existing
  · intro disk mode place htext hdisk
    obtain ⟨saved, disk', hpatch, -, hreads⟩ := Aggregate.patch_writable hf htext hdisk
    obtain ⟨again, hsave, hsame⟩ := Disk.save_of_same hreads mode
    -- the file has the merged text by now, and a text that is there already is not written
    refine ⟨_, saved, again, disk', hpatch, hreads, ?_, hsame⟩
    rw [Aggregate.patch_eq hreads, Aggregate.mergeText_mergeText hf existing, hsave]
    rfl

/-- A header with a quote and a dollar sign. -/
theorem patch_dataSource_quote :
    let api : Api := { name := "get_user", method := .get, path := "/user", header := some "h.json" }
    let c : Context :=
      { api, page := "login", project := "shop", headers := some [("X", .str "it's $5")] }
    ∃ f, c.dataSource = .ok f ∧ ∃ body, (implementationSection, body) ∈ f.blocks ∧
      (∃ first last, (Document.parse (mergeText none f).1).firstBlock?
        ⟨implementationSection, "get_user"⟩ =
          some (.block ⟨implementationSection, "get_user"⟩ first (Text.splitLines body) last)) ∧
      mergeText (some (mergeText none f).1) f = ((mergeText none f).1, []) := by
  intro api c
  have hbuilt : Validation.buildApi (.str "get_user")
      (.obj [("method", .str "get"), ("path", .str "/user"), ("header", .str "h.json")]) [] =
        .ok ([], .ok c.api) := rfl
  have hheaders : c.Unbroken := by
    intro headers hsome
    obtain rfl := Option.some.inj hsome
    decide
  obtain ⟨⟨f, hf⟩ | ⟨hlist, -⟩, hpatch⟩ := patch_dataSource hbuilt (by decide) hheaders
  · obtain ⟨body, hbody, hmerge⟩ := hpatch f hf
    obtain ⟨merged, rfl, hfirst, -, hagain, -⟩ := hmerge none
    exact ⟨f, hf, body, hbody, hfirst, hagain⟩
  · contradiction

/-- A header with the end marker of its block between two line breaks. In no file can the block be read
back: it is closed at the header. -/
theorem closed_by_header :
    let api : Api := { name := "get_user", method := .get, path := "/user", returnData := .raw,
                       header := some "h.json" }
    let c : Context :=
      { api, page := "login", project := "shop"
        headers := some [("X", .str "a\n  // json2dart:end implementation:get_user\nb")] }
    Validation.buildApi (.str "get_user") (.obj [("method", .str "get"), ("path", .str "/user"),
      ("header", .str "h.json"), ("return_data", .str "raw")]) [] = .ok ([], .ok c.api) ∧
    ∃ f, c.dataSource = .ok f ∧ ∃ body, (implementationSection, body) ∈ f.blocks ∧
      ∀ existing first last,
        (Document.parse (mergeText existing f).1).firstBlock? ⟨implementationSection, "get_user"⟩ ≠
          some (.block ⟨implementationSection, "get_user"⟩ first (Text.splitLines body) last) := by
  intro api c
  have hend : Aggregate.end? "  // json2dart:end implementation:get_user" =
      some ⟨implementationSection, "get_user"⟩ := by
    decide +kernel
  have hcall : c.dataSourceBody.toOption.any (fun call => call.any fun line =>
      (Text.splitLines line).contains "  // json2dart:end implementation:get_user") = true := by
    decide +kernel
  refine ⟨rfl, ?_⟩
  obtain ⟨f, hf⟩ | ⟨hlist, -⟩ := c.dataSource_cases
  · obtain ⟨front, call, hbuilt, hbody⟩ := exists_implementation hf
    refine ⟨f, hf, _, hbody, fun existing first last hfirst => ?_⟩
    -- no block that is read holds its own end marker, and the middle line of the header is one
    have hclean := (Document.sound_parse _).faithful.isBody (List.mem_of_find?_eq_some hfirst)
    rw [hbuilt] at hcall
    obtain ⟨line, hline, hmark⟩ := List.any_eq_true.mp hcall
    refine (hclean _ ?_).2 hend
    rw [Text.splitLines_joinLines_eq_flatMap (by simp)]
    exact List.mem_flatMap.mpr ⟨line, by simp [hline], List.contains_iff_mem.mp hmark⟩
  · contradiction

end Layer.Context

end DartScaffold
