/-!
The flags of the command line with their spellings. A long spelling may be cut short as long as
one flag alone begins so, and one-letter flags may be written together.
-/

namespace DartScaffold.CommandLine

inductive Flag where
  | help
  | version
  | root
  | appsName
  | featureName
  | pageName
  | projectName
  | morphemeYaml
  | api
  | noApi
  | replace
  | noReplace
  | unitTest
  | noUnitTest
  | verbose
  | quiet
  deriving DecidableEq, Repr

namespace Flag

def all : List Flag :=
  [help, version, root, appsName, featureName, pageName, projectName, morphemeYaml, api, noApi,
   replace, noReplace, unitTest, noUnitTest, verbose, quiet]

theorem mem_all (flag : Flag) : flag ∈ all := by
  cases flag <;> decide

def long : Flag → String
  | help => "--help"
  | version => "--version"
  | root => "--root"
  | appsName => "--apps-name"
  | featureName => "--feature-name"
  | pageName => "--page-name"
  | projectName => "--project-name"
  | morphemeYaml => "--morpheme-yaml"
  | api => "--api"
  | noApi => "--no-api"
  | replace => "--replace"
  | noReplace => "--no-replace"
  | unitTest => "--unit-test"
  | noUnitTest => "--no-unit-test"
  | verbose => "--verbose"
  | quiet => "--quiet"

def short? : Flag → Option Char
  | help => some 'h'
  | verbose => some 'v'
  | quiet => some 'q'
  | _ => none

def takesValue : Flag → Bool
  | root | appsName | featureName | pageName | projectName | morphemeYaml => true
  | _ => false

/-- The flag that cannot be given beside this one. -/
def rival? : Flag → Option Flag
  | api => some noApi
  | noApi => some api
  | replace => some noReplace
  | noReplace => some replace
  | unitTest => some noUnitTest
  | noUnitTest => some unitTest
  | _ => none

def ofLong? (text : List Char) : Option Flag :=
  all.find? fun flag => flag.long.toList == text

def ofShort? (letter : Char) : Option Flag :=
  all.find? fun flag => flag.short? == some letter

/-- The flags whose long spelling begins with the text. -/
def completions (text : List Char) : List Flag :=
  all.filter fun flag => text.isPrefixOf flag.long.toList

end Flag

end DartScaffold.CommandLine
