import DartScaffold.Layer.Context
import DartScaffold.Proofs.Text.Spelling
import DartScaffold.Validation.Entry
import DartScaffold.Validation.Page

/-!
The names of the APIs of one page. An accepted page has distinct file stems, which are snake-case names; the
methods of its shared classes have camel-case names, which do not show every underscore beside a digit.
-/

namespace DartScaffold.Validation

open Layer (Context)
open Text (looseSnake)

/-- The file stems of a page's APIs are distinct, if its names are accepted. -/
theorem nodup_stems_of_clashes {page : String} {seen : List (String × String)} {names : List String}
    (h : Issues.isValid (clashes page seen names) = true) :
    (names.map Text.snakeCase).Nodup ∧
      ∀ name ∈ names, Text.snakeCase name ∉ seen.map Prod.fst := by
  induction names generalizing seen with
  | nil => exact ⟨List.nodup_nil, List.forall_mem_nil _⟩
  | cons name names ih =>
      rw [clashes] at h
      cases hlookup : seen.lookup (Text.snakeCase name) with
      | some other =>
          rw [hlookup] at h
          simp [Issues.isValid, Issue.isError, clash] at h
      | none =>
          rw [hlookup] at h
          obtain ⟨hnodup, hfresh⟩ := ih h
          have hseen : Text.snakeCase name ∉ seen.map Prod.fst := by
            rintro hmem
            obtain ⟨entry, hentry, heq⟩ := List.mem_map.mp hmem
            have hnone := List.lookup_eq_none_iff.mp hlookup entry hentry
            simp [heq] at hnone
          simp only [List.map_append, List.map_cons, List.map_nil, List.mem_append,
            List.mem_singleton, not_or] at hfresh
          refine ⟨List.nodup_cons.mpr ⟨fun hmem => ?_, hnodup⟩,
            List.forall_mem_cons.mpr ⟨hseen, fun other hother => (hfresh other hother).1⟩⟩
          obtain ⟨other, hother, heq⟩ := List.mem_map.mp hmem
          exact (hfresh other hother).2 heq

/-- Two lists of spellings tell the same names apart. -/
theorem nodup_map_iff {α β γ : Type} {f : α → β} {g : α → γ} {names : List α}
    (h : ∀ name ∈ names, ∀ other ∈ names, f name = f other ↔ g name = g other) :
    (names.map f).Nodup ↔ (names.map g).Nodup := by
  rw [List.Nodup, List.Nodup, List.pairwise_map, List.pairwise_map]
  exact List.Pairwise.iff_of_mem fun ha hb => not_congr (h _ ha _ hb)

theorem map_apiMethod (contexts : List Context) : contexts.map Context.apiMethod =
    (contexts.map fun c => c.api.name).map Text.camelCase := by
  rw [List.map_map]
  rfl

/-- The methods of an accepted page are distinct if and only if its stems are distinct without the
underscores beside digits. So they are distinct if no name has a digit. -/
theorem apiMethods_nodup_iff {page : Page} {contexts : List Context}
    (hvalid : (pageIssues page).isValid = true)
    (hnames : (contexts.map fun c => c.api.name) = page.apiNames) :
    (contexts.map Context.apiFile).Nodup ∧
      ((contexts.map Context.apiMethod).Nodup ↔ (page.apiNames.map looseSnake).Nodup) ∧
      ((∀ name ∈ page.apiNames, ∀ c ∈ name.toList, c.isDigit = false) →
        (contexts.map Context.apiMethod).Nodup) := by
  have hstems := (nodup_stems_of_clashes hvalid).1
  have hfiles : contexts.map Context.apiFile = page.apiNames.map Text.snakeCase := by
    rw [← hnames, List.map_map]
    rfl
  have hiff : (contexts.map Context.apiMethod).Nodup ↔ (page.apiNames.map looseSnake).Nodup := by
    rw [map_apiMethod, hnames]
    exact nodup_map_iff fun name _ other _ => Text.camelCase_eq_iff name other
  refine ⟨hfiles ▸ hstems, hiff, fun hdigits => hiff.mpr ?_⟩
  rwa [List.map_congr_left fun name hname => Text.looseSnake_of_no_digit (hdigits name hname)]

theorem apiMethods_nodup_iff_user :
    let page : Page := { name := "user", apis := [("get_user", .null), ("getHTTPUser2", .null)] }
    let contexts : List Context := page.apiNames.map fun name =>
      { api := { name, method := .get, path := "/user" }, page := "user", project := "shop" }
    (pageIssues page).isValid = true ∧ contexts.map Context.apiMethod = ["getUser", "getHttpUser2"] ∧
      (contexts.map Context.apiMethod).Nodup := by
  intro page contexts
  have hvalid : (pageIssues page).isValid = true := by decide +kernel
  obtain ⟨-, hiff, -⟩ := @apiMethods_nodup_iff page contexts hvalid rfl
  exact ⟨hvalid, by decide +kernel, hiff.mpr (by decide +kernel)⟩

/-- The names `get2` and `get_2` are accepted on one page and have one method. -/
theorem clashing_methods :
    let page : Page := { name := "user", apis := [("get2", .null), ("get_2", .null)] }
    let contexts : List Context := page.apiNames.map fun name =>
      { api := { name, method := .get, path := "/user" }, page := "user", project := "shop" }
    (pageIssues page).isValid = true ∧
      (∀ name ∈ page.apiNames, (nameIssues (.str name)).isValid = true) ∧
      contexts.map Context.apiMethod = ["get2", "get2"] := by
  decide +kernel

end DartScaffold.Validation
