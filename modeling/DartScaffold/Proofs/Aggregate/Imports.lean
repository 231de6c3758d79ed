import DartScaffold.Proofs.Aggregate.Idempotence

/-!
Putting imports into a document. Lines count as the same when their normal forms are equal, and it is the
normal form that is put in; so putting in the same lines again does nothing. The same holds after the
document has been written and read, if it is one that reads back: a begin marker in the body of a block
may else take the imports into another block.
-/

namespace DartScaffold.Aggregate

namespace Document

/-! ### What is put in -/

/-- The order of first appearance stays the same when another element comes before all. -/
theorem pairwise_idxOf_cons {first : String} {keys all : List String} (hnot : first ∉ keys)
    (h : keys.Pairwise fun key other => all.idxOf key < all.idxOf other) :
    keys.Pairwise fun key other => (first :: all).idxOf key < (first :: all).idxOf other := by
  refine h.imp_of_mem fun {key other} hkey hother hlt => ?_
  have hne : first ≠ key := fun h => hnot (h ▸ hkey)
  have hne' : first ≠ other := fun h => hnot (h ▸ hother)
  rw [List.idxOf_cons_ne _ hne, List.idxOf_cons_ne _ hne']
  omega

/-- The normal forms come in the order in which they first appear, and so each of them once. -/
theorem pairwise_freshImports (known imports : List String) :
    (freshImports known imports).Pairwise fun key other =>
      (imports.map normalizeImport).idxOf key < (imports.map normalizeImport).idxOf other := by
  induction imports generalizing known with
  | nil => exact .nil
  | cons line imports ih =>
      rw [freshImports, List.map_cons]
      generalize normalizeImport line = first
      split
      · rename_i hskip
        refine pairwise_idxOf_cons (fun hmem => ?_) (ih known)
        obtain ⟨-, hne, hnew⟩ := mem_freshImports.mp hmem
        simp [hne, hnew] at hskip
      · have hnot : first ∉ freshImports (first :: known) imports :=
          fun hmem => (mem_freshImports.mp hmem).2.2 List.mem_cons_self
        refine List.pairwise_cons.mpr ⟨fun key hkey => ?_, pairwise_idxOf_cons hnot (ih _)⟩
        have hne : first ≠ key := fun h => hnot (h ▸ hkey)
        rw [List.idxOf_cons_self, List.idxOf_cons_ne _ hne]
        omega

theorem Imported.sublist {fresh : List String} {d d' : Document} (h : Imported fresh d d') :
    d.Sublist d' := by
  cases h with
  | nothing => exact List.Sublist.refl d
  | after =>
      exact List.Sublist.append_left (List.Sublist.cons_cons _ (List.sublist_append_right _ _)) _
  | top => exact (List.sublist_cons_self _ d).trans (List.sublist_append_right _ _)

section AddImports

variable (d : Document) (imports : List String)

theorem snd_addImports : (d.addImports imports).2 = (freshImports d.importKeys imports).length := by
  rw [addImports]
  split
  · rename_i hnone
    rw [List.isEmpty_iff, List.map_eq_nil_iff] at hnone
    rw [hnone]
    rfl
  · simp

theorem mem_importKeys_addImports (key : String) :
    key ∈ (d.addImports imports).1.importKeys ↔
      key ∈ d.importKeys ∨ key ≠ "" ∧ key ∈ imports.map normalizeImport := by
  rw [(imported_addImports d imports).mem_importKeys]
  constructor
  · rintro (h | h)
    · exact .inl h
    · obtain ⟨other, hother, rfl⟩ := List.mem_map.mp h
      obtain ⟨⟨line, hline, rfl⟩, hne, -⟩ := mem_freshImports.mp hother
      rw [normalizeImport_normalizeImport]
      exact .inr ⟨hne, List.mem_map_of_mem hline⟩
  · rintro (h | ⟨hne, hmem⟩)
    · exact .inl h
    · obtain ⟨line, hline, rfl⟩ := List.mem_map.mp hmem
      rw [← (imported_addImports d imports).mem_importKeys]
      exact importKeys_addImports d imports hline hne

theorem freshImports_addImports :
    freshImports (d.addImports imports).1.importKeys imports = [] := by
  refine List.eq_nil_iff_forall_not_mem.mpr fun key hkey => ?_
  obtain ⟨⟨line, hline, rfl⟩, hne, hnew⟩ := mem_freshImports.mp hkey
  exact hnew (importKeys_addImports d imports hline hne)

variable {d imports}

theorem addImports_of_fresh_eq_nil (h : freshImports d.importKeys imports = []) :
    d.addImports imports = (d, 0) := by
  simp [addImports, h]

/-- The document reads back as it is written; one without nodes reads back as an empty line. -/
def ReadsBack (d : Document) : Prop :=
  d = [] ∨ parse d.render = d

theorem addImports_parse_render (hd : d.ReadsBack)
    (hlines : ∀ key ∈ freshImports d.importKeys imports, isImportLine key = true) :
    (parse (d.addImports imports).1.render).addImports imports =
      (parse (d.addImports imports).1.render, 0) := by
  have hsound : d.Faithful ∧ d.Lacks '\n' := by
    rcases hd with rfl | hd
    · exact ⟨.nil, by simp [Lacks]⟩
    · exact ⟨hd ▸ (sound_parse _).faithful, hd ▸ (sound_parse _).newlines⟩
  have himported := imported_addImports d imports
  have hagain := freshImports_addImports d imports
  refine addImports_of_fresh_eq_nil ?_
  by_cases hempty : (d.addImports imports).1 = []
  · rw [hempty] at hagain ⊢
    exact hagain
  · have hback := parse_render ⟨himported.faithful hlines hsound.1,
      addImports_lacks (.inl rfl) imports hsound.2, hempty⟩
    rw [hback]
    exact hagain

end AddImports

/-- `keys` are the normal forms that were missing, in the order in which they first appear, and the
document has them in addition to what it had. -/
structure AddsOnce (imports : List String) (d : Document) (keys : List String) (d' : Document) :
    Prop where
  missing : ∀ key, key ∈ keys ↔
    key ≠ "" ∧ key ∈ imports.map normalizeImport ∧ key ∉ d.importKeys
  order : keys.Pairwise fun key other =>
    (imports.map normalizeImport).idxOf key < (imports.map normalizeImport).idxOf other
  place : Imported keys d d'
  kept : d.Sublist d'
  importKeys : ∀ key, key ∈ d'.importKeys ↔
    key ∈ d.importKeys ∨ key ≠ "" ∧ key ∈ imports.map normalizeImport

theorem addsOnce_addImports (d : Document) (imports : List String) :
    AddsOnce imports d (freshImports d.importKeys imports) (d.addImports imports).1 where
  missing key := by
    rw [mem_freshImports, ← List.mem_map, and_left_comm]
  order := pairwise_freshImports d.importKeys imports
  place := imported_addImports d imports
  kept := (imported_addImports d imports).sublist
  importKeys := mem_importKeys_addImports d imports

/-- The normal form of a line is its own normal form. So a document gets each missing normal form once,
and nothing from the same lines again: as it is, and also written and read, if it read back before and
what was put in reads as imports. -/
theorem addImports_deduplicates :
    (∀ line, normalizeImport (normalizeImport line) = normalizeImport line) ∧
      ∀ (d : Document) (imports : List String), ∃ keys d',
        d.addImports imports = (d', keys.length) ∧ AddsOnce imports d keys d' ∧
          d'.addImports imports = (d', 0) ∧
          (d.ReadsBack → (∀ key ∈ keys, isImportLine key = true) →
            (parse d'.render).addImports imports = (parse d'.render, 0)) := by
  refine ⟨normalizeImport_normalizeImport, fun d imports => ?_⟩
  refine ⟨freshImports d.importKeys imports, (d.addImports imports).1, ?_,
    addsOnce_addImports d imports, ?_, addImports_parse_render⟩
  · rw [← snd_addImports]
  · exact addImports_of_fresh_eq_nil (freshImports_addImports d imports)

theorem addImports_deduplicates_quoted : ∃ (keys : List String) (d' : Document),
    (parse "import 'a.dart';\n").addImports ["import  \"b.dart\" ;", "import 'a.dart' ;"] =
        (d', keys.length) ∧
      "import 'b.dart';" ∈ keys ∧ (∀ key ∈ keys, isImportLine key = true) ∧
      (parse d'.render).addImports ["import  \"b.dart\" ;", "import 'a.dart' ;"] =
        (parse d'.render, 0) := by
  obtain ⟨keys, d', hadd, honce, -, hread⟩ := addImports_deduplicates.2 (parse "import 'a.dart';\n")
    ["import  \"b.dart\" ;", "import 'a.dart' ;"]
  have hlines : ∀ key ∈ keys, isImportLine key = true := by
    intro key hkey
    have hforms : ∀ key ∈ ["import  \"b.dart\" ;", "import 'a.dart' ;"].map normalizeImport,
        isImportLine key = true := by decide +kernel
    exact hforms key ((honce.missing key).mp hkey).2.1
  have hback : ReadsBack (parse "import 'a.dart';\n") := .inr (by rw [render_parse])
  exact ⟨keys, d', hadd, (honce.missing _).mpr (by decide +kernel), hlines, hread hback hlines⟩

/-- A block whose body is the begin marker of another one, which ends after the imports. -/
def overlapping : Document :=
  [.block ⟨"s", "a"⟩ "// json2dart:begin s:a" ["// json2dart:begin s:z"] "// json2dart:end s:a",
    .text "", .anchor "// json2dart:anchor s" "s" "", .directive "import 'a.dart';",
    .text "// json2dart:end s:z"]

/-- Written and read, the document has its imports inside the other block, and none is known. -/
theorem addImports_again_overlapping :
    (parse "// json2dart:anchor s\nimport 'a.dart';\n// json2dart:end s:z").putBlock ⟨"s", "a"⟩
        "// json2dart:begin s:z" = (overlapping, true) ∧
      freshImports overlapping.importKeys ["import 'b.dart';"] = ["import 'b.dart';"] ∧
      isImportLine "import 'b.dart';" = true ∧
      ((parse (overlapping.addImports ["import 'b.dart';"]).1.render).addImports
        ["import 'b.dart';"]).2 = 1 := by
  decide +kernel

end Document

end DartScaffold.Aggregate
