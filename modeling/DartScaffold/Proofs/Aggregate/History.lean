import DartScaffold.Proofs.Aggregate.Merge
import Mathlib.Data.List.Nodup

/-!
What a sequence of fragments asks for: the log of the blocks they supply, which APIs contribute to a
section in the order of their first supply, and what each supplied last. The import keys are those
that are new beside the ones of the skeleton, in the order of their first appearance.
-/

namespace DartScaffold.Aggregate

/-- A fragment gives a section of its API a body. -/
structure Supply where
  key : BlockKey
  body : String

def Fragment.supplies (f : Fragment) : List Supply :=
  f.blocks.map fun block => ⟨⟨block.1, f.api⟩, block.2⟩

def supplyLog (fs : List Fragment) : List Supply :=
  fs.flatMap Fragment.supplies

/-- The APIs that ever supplied a section, by their first supplies. -/
def contributors (log : List Supply) (part : String) : List String :=
  ((log.filter fun supply => supply.key.part == part).map fun supply => supply.key.api).eraseDups

def latest (log : List Supply) (key : BlockKey) : String :=
  ((log.reverse.find? fun supply => supply.key == key).map Supply.body).getD ""

/-- The normal forms of the imports that are not among `known`. -/
def newImportKeys (known : List String) (fs : List Fragment) : List String :=
  (((fs.flatMap Fragment.imports).map normalizeImport).filter fun key =>
    decide (key ≠ "") && !known.contains key).eraseDups

/-! ### One more supply -/

section Concat

variable {log : List Supply} {supply : Supply} {part : String}

theorem contributors_concat_of_ne (h : supply.key.part ≠ part) :
    contributors (log ++ [supply]) part = contributors log part := by
  simp [contributors, h]

theorem contributors_concat (h : supply.key.part = part) :
    contributors (log ++ [supply]) part =
      if supply.key.api ∈ contributors log part then contributors log part
      else contributors log part ++ [supply.key.api] := by
  rw [contributors, List.filter_append, List.map_append, List.eraseDups_append, contributors]
  by_cases hmem : supply.key.api ∈ (log.filter fun s => s.key.part == part).map fun s => s.key.api
  · simp [h, hmem, List.removeAll, List.mem_eraseDups]
  · simp [h, hmem, List.removeAll, List.mem_eraseDups, List.eraseDups_cons]

theorem nodup_contributors (log : List Supply) (part : String) :
    (contributors log part).Nodup :=
  Text.nodup_eraseDups _

theorem latest_concat_self (log : List Supply) (supply : Supply) :
    latest (log ++ [supply]) supply.key = supply.body := by
  simp [latest]

theorem latest_concat_of_ne {key : BlockKey} (h : supply.key ≠ key) :
    latest (log ++ [supply]) key = latest log key := by
  simp [latest, h]

end Concat

/-! ### One more fragment -/

theorem supplyLog_concat (fs : List Fragment) (f : Fragment) :
    supplyLog (fs ++ [f]) = supplyLog fs ++ f.supplies := by
  simp [supplyLog]

theorem newImportKeys_eq (known : List String) (fs : List Fragment) :
    newImportKeys known fs = freshImports known (fs.flatMap Fragment.imports) := by
  rw [Document.freshImports_eq]
  rfl

theorem freshImports_congr {known other : List String} (h : ∀ key, key ∈ known ↔ key ∈ other)
    (imports : List String) : freshImports known imports = freshImports other imports := by
  rw [Document.freshImports_eq, Document.freshImports_eq]
  refine congrArg List.eraseDups (List.filter_congr fun key _ => ?_)
  rw [Bool.eq_iff_iff, Document.isNew_iff, Document.isNew_iff, h]

theorem freshImports_append (known imports more : List String) :
    freshImports known (imports ++ more) =
      freshImports known imports ++ freshImports (known ++ freshImports known imports) more := by
  rw [Document.freshImports_eq, List.map_append, List.filter_append, List.eraseDups_append,
    ← Document.freshImports_eq, Document.freshImports_eq (known ++ _)]
  refine congrArg (freshImports known imports ++ List.eraseDups ·) ?_
  rw [List.removeAll, List.filter_filter]
  refine List.filter_congr fun key _ => ?_
  rw [Bool.eq_iff_iff]
  simp only [Bool.and_eq_true, Document.isNew_iff, List.mem_append, Document.freshImports_eq,
    List.mem_eraseDups, Bool.not_eq_true', List.elem_eq_contains, List.contains_eq_mem,
    decide_eq_false_iff_not]
  tauto

theorem newImportKeys_concat (known : List String) (fs : List Fragment) (f : Fragment) :
    newImportKeys known (fs ++ [f]) =
      newImportKeys known fs ++ freshImports (known ++ newImportKeys known fs) f.imports := by
  simp only [newImportKeys_eq, List.flatMap_append, List.flatMap_singleton, freshImports_append]

end DartScaffold.Aggregate
