import DartScaffold.Api.Basic
import DartScaffold.Dart.Identifier
import DartScaffold.Validation.Issue

/-!
The check of one API entry as it stands in a configuration file. Every fault of an entry is an
issue of its own; an entry without errors becomes an `Api`.
-/

namespace DartScaffold.Validation

/-- What can be said about an API entry. -/
inductive Fault where
  | badName (name : Json)
  | keywordName (name keyword : String)
  | notMapping (api type : String)
  | noMethod (api : String)
  | unknownMethod (value : Json)
  | noPath (api : String)
  | badPath (value : Json)
  | unknownReturnData (value : Json)
  | notStreamable (returnData method : Json)
  | badCacheStrategy
  | unknownCacheStrategy (value : Json)
  | badTtl (value : Json)
  | badKeepExpired (value : Json)
  | cacheIgnored (method : Json)
  | badReference (key type : String)
  | unknownKey (key : String)
  deriving DecidableEq, Repr

def sorted (names : List String) : String :=
  ", ".intercalate (names.mergeSort fun a b => !(b < a))

namespace Fault

def level : Fault → Level
  | cacheIgnored _ => .warning
  | unknownKey _ => .info
  | _ => .error

def code : Fault → String
  | badName _ => "INVALID_API_NAME"
  | keywordName _ _ => "API_NAME_DART_KEYWORD"
  | notMapping _ _ => "API_NOT_MAPPING"
  | noMethod _ => "MISSING_METHOD"
  | unknownMethod _ => "INVALID_METHOD"
  | noPath _ => "MISSING_PATH"
  | badPath _ => "INVALID_PATH"
  | unknownReturnData _ => "INVALID_RETURN_DATA"
  | notStreamable _ _ => "RETURN_DATA_NOT_STREAMABLE"
  | badCacheStrategy | unknownCacheStrategy _ => "INVALID_CACHE_STRATEGY"
  | badTtl _ => "INVALID_CACHE_TTL"
  | badKeepExpired _ => "INVALID_KEEP_EXPIRED_CACHE"
  | cacheIgnored _ => "CACHE_STRATEGY_IGNORED"
  | badReference _ _ => "INVALID_FILE_REFERENCE"
  | unknownKey _ => "UNKNOWN_API_KEY"

def message : Fault → String
  | badName name =>
    s!"API name '{name.plainText}' must start with a letter and contain only " ++
      "letters, digits and underscores."
  | keywordName name keyword => s!"API name '{name}' becomes the Dart keyword '{keyword}'."
  | notMapping api type => s!"API entry '{api}' must be a mapping, got {type}."
  | noMethod api => s!"API '{api}' has no 'method'."
  | unknownMethod value =>
    s!"Unknown method '{value.plainText}'. " ++
      s!"Expected one of: {sorted (Api.Method.all.map Api.Method.name)}."
  | noPath api => s!"API '{api}' has no 'path'."
  | badPath value => s!"'path' must be a string, got {value.text}."
  | unknownReturnData value =>
    s!"Unknown return_data '{value.plainText}'. " ++
      s!"Expected one of: {sorted (Api.ReturnData.all.map Api.ReturnData.name)}."
  | notStreamable returnData method =>
    s!"return_data '{returnData.plainText}' is not available for streaming " ++
      s!"method '{method.plainText}'."
  | badCacheStrategy => "'cache_strategy' must be a strategy name or a mapping."
  | unknownCacheStrategy value =>
    s!"Unknown cache strategy '{value.plainText}'. " ++
      s!"Expected one of: {sorted (Api.CacheStrategy.all.map Api.CacheStrategy.name)}."
  | badTtl value => s!"'ttl' must be a non-negative number of minutes, got {value.text}."
  | badKeepExpired value => s!"'keep_expired_cache' must be true or false, got {value.text}."
  | cacheIgnored method => s!"cache_strategy is ignored for method '{method.plainText}'."
  | badReference key type => s!"'{key}' must be a path string, got {type}."
  | unknownKey key => s!"Ignoring key '{key}'."

/-- The key that the fault is about, where its message alone does not say it. -/
def key? : Fault → Option String
  | badReference key _ => some key
  | unknownKey key => some key
  | _ => none

def issue (api : Json) (fault : Fault) : Issue :=
  { level := fault.level
    code := fault.code
    message := fault.message
    context := ("api", api) :: (fault.key?.map fun key => ("key", .str key)).toList }

end Fault

/-- A letter, then letters, digits and underscores; a line feed may end the name. -/
def isApiName (name : String) : Bool :=
  match name.toList with
  | [] => false
  | c :: rest =>
    c.isAlpha &&
      match rest.dropWhile fun c => c.isAlphanum || c == '_' with
      | [] => true
      | ['\n'] => true
      | _ => false

def nameFaults (name : Json) : List Fault :=
  match name with
  | .str s =>
    if isApiName s then
      let keyword := Text.camelCase s
      if Dart.keywords.contains keyword then [.keywordName s keyword] else []
    else [.badName name]
  | _ => [.badName name]

/-- Whether a value is one of a set of names. Lists and objects cannot be looked up in a set. -/
def isOneOf (names : List String) : Json → Except Failure Bool
  | .str s => .ok (names.contains s)
  | .arr _ => .error (.unhashable "list")
  | .obj _ => .error (.unhashable "dict")
  | _ => .ok false

def endsWith (word : List Char) (s : List Char) : Bool :=
  word.reverse.isPrefixOf s.reverse

/-- A method of any spelling whose answer would be a stream. -/
def soundsLikeStream : Json → Bool
  | .str s => endsWith "Sse".toList s.toList
  | _ => false

def containsWord (word : List Char) : List Char → Bool
  | [] => word.isEmpty
  | c :: s => word.isPrefixOf (c :: s) || containsWord word s

def soundsLikeMultipart : Json → Bool
  | .str s => containsWord "multipart".toList (s.toList.map Char.toLower)
  | _ => false

def methodFaults (api : String) : Option Json → Except Failure (List Fault)
  | none | some .null => .ok [.noMethod api]
  | some value => do
    if ← isOneOf (Api.Method.all.map Api.Method.name) value then return []
    else return [.unknownMethod value]

def pathFaults (api : String) : Option Json → List Fault
  | none | some .null => [.noPath api]
  | some (.str _) => []
  | some value => [.badPath value]

/-- An absent value of whatever type means a model. -/
def returnDataValue (value : Option Json) : Json :=
  match value with
  | some value => if value.isPresent then value else .str "model"
  | none => .str "model"

def streamableNames : List String :=
  (Api.ReturnData.all.filter Api.ReturnData.isStreamable).map Api.ReturnData.name

def returnDataFaults (value method : Json) : Except Failure (List Fault) := do
  if ← isOneOf (Api.ReturnData.all.map Api.ReturnData.name) value then
    if soundsLikeStream method && !(← isOneOf streamableNames value) then
      return [.notStreamable value method]
    else return []
  else return [.unknownReturnData value]

def ttlFaults : Json → List Fault
  | .null => []
  | .int i => if i < 0 then [.badTtl (.int i)] else []
  | value => [.badTtl value]

def keepFaults : Json → List Fault
  | .null => []
  | .bool _ => []
  | value => [.badKeepExpired value]

def directiveFaults (entries : Entries) : Except Failure (List Fault) := do
  let value (key : String) : Json := (entries.get? key).getD .null
  let known ← isOneOf (Api.CacheStrategy.all.map Api.CacheStrategy.name) (value "strategy")
  let unknown := if known then [] else [Fault.unknownCacheStrategy (value "strategy")]
  return unknown ++ ttlFaults (value "ttl") ++ keepFaults (value "keep_expired_cache")

def cacheFaults (method : Json) : Option Json → Except Failure (List Fault)
  | none | some .null => .ok []
  | some value => do
    let faults ← match value with
      | .str s => directiveFaults [("strategy", .str s)]
      | .obj entries => directiveFaults entries
      | _ => pure [.badCacheStrategy]
    let ignored := soundsLikeStream method || soundsLikeMultipart method
    return faults ++ if ignored then [.cacheIgnored method] else []

/-- The keys whose values name files. They are a set without an order of its own, of which the alphabetical
one stands for all: the faults of several keys may as well come in any other. -/
def referenceKeys : List String := ["body", "dir_extra", "header", "response"]

def referenceFaults (entries : Entries) : List Fault :=
  referenceKeys.filterMap fun key =>
    match entries.get? key with
    | none | some .null | some (.str _) => none
    | some value => some (.badReference key value.typeName)

def knownKeys : List String :=
  ["method", "path", "body", "response", "header", "cache_strategy", "return_data", "dir_extra"]

def unknownKeyFaults (entries : Entries) : List Fault :=
  (entries.keys.filter fun key => !knownKeys.contains key).map Fault.unknownKey

/-- The faults of an entry's values, in the order of the checks. Only among the references the order is not
fixed, where alphabetical order stands for any. -/
def recordFaults (name : String) (entries : Entries) : Except Failure (List Fault) := do
  let method := (entries.get? "method").getD .null
  let methods ← methodFaults name (entries.get? "method")
  let returns ← returnDataFaults (returnDataValue (entries.get? "return_data")) method
  let caches ← cacheFaults method (entries.get? "cache_strategy")
  return methods ++ pathFaults name (entries.get? "path") ++ returns ++ caches ++
    referenceFaults entries ++ unknownKeyFaults entries

/-- The faults of the entry `raw` of the API called `name`, which need not be a text. -/
def entryFaults (name raw : Json) : Except Failure (List Fault) :=
  match raw with
  | .obj entries => (nameFaults name ++ ·) <$> recordFaults name.plainText entries
  | _ => .ok (nameFaults name ++ [.notMapping name.plainText raw.typeName])

def entryIssues (name raw : Json) : Except Failure Issues := do
  return (← entryFaults name raw).map (Fault.issue name)

def nameIssues (name : Json) : Issues :=
  (nameFaults name).map (Fault.issue name)

/-- The API of an entry that the checks passed. -/
def apiOfEntry (name : Json) : Json → Schema.Checked Api
  | .obj entries => DartScaffold.Api.ofEntries (Entries.put entries "name" name)
  | _ => Schema.fail .notDictionary

/-- The warnings of the check, which stand even if the entry is refused, and the API. The context
says where the entry is. -/
def buildApi (name raw : Json) (context : Entries) :
    Except Failure (List Issue × Except Failure Api) := do
  let issues ← entryIssues name raw
  let refuse (messages : List String) : Except Failure Api :=
    .error (.config (.badEntry name.plainText messages) (context.put "api" name))
  let api :=
    if issues.isValid then
      match apiOfEntry name raw with
      | .valid api => .ok api
      | .invalid problems => refuse (problems.map Schema.Problem.message)
    else refuse issues.errorMessages
  return (issues.warnings, api)

end DartScaffold.Validation
