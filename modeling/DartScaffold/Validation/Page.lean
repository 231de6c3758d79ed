import DartScaffold.Config.Feature
import DartScaffold.Config.Options
import DartScaffold.Text.Case
import DartScaffold.Validation.Issue

/-!
Checks beyond single entries: the APIs of a page must not share file names, and a page can only be
selected together with its feature.
-/

namespace DartScaffold.Validation

def clash (page other name stem : String) : Issue :=
  { level := .error
    code := "DUPLICATE_API_FILE"
    message := s!"APIs '{other}' and '{name}' both generate '{stem}_*.dart'."
    context := [("page", .str page), ("api", .str name)] }

/-- The clashes among the remaining names; `seen` holds the file stems so far with the names that
they come from. -/
def clashes (page : String) : List (String × String) → List String → Issues
  | _, [] => []
  | seen, name :: rest =>
    let stem := Text.snakeCase name
    match seen.lookup stem with
    | some other => clash page other name stem :: clashes page seen rest
    | none => clashes page (seen ++ [(stem, name)]) rest

def pageIssues (page : Page) : Issues :=
  clashes page.name [] page.apiNames

def optionIssues (options : Options) : Issues :=
  match options.page with
  | none | some "" => []
  | some page =>
    if options.feature.getD "" = "" then
      [{ level := .error
         code := "PAGE_WITHOUT_FEATURE"
         message := "A page filter needs a feature filter (--feature-name)."
         context := [("page", .str page)] }]
    else []

end DartScaffold.Validation
