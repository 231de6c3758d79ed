import DartScaffold.Api.Kinds
import DartScaffold.Schema.Record

/-!
One API of a page: how it is called, where its samples are, and what its call returns.
-/

namespace DartScaffold

open Schema (Checked Check)

/-- How long and in which order a client uses its cache. -/
structure CacheDirective where
  strategy : Api.CacheStrategy
  /-- Minutes. -/
  ttl : Option Int := none
  keepExpired : Option Bool := none
  deriving Repr, DecidableEq

namespace CacheDirective

def strategyOf : Check Api.CacheStrategy :=
  Schema.choice Api.CacheStrategy.name Api.CacheStrategy.all

def ofEntries (entries : Entries) : Checked CacheDirective :=
  CacheDirective.mk
    <$> Schema.required entries "strategy" strategyOf
    <*> Schema.withDefault entries "ttl" none (Schema.optional Schema.natural)
    <*> Schema.withDefault entries "keep_expired_cache" none (Schema.optional Schema.boolean)

def set (d : CacheDirective) (field : String) (value : Json) : Checked CacheDirective :=
  Checked.under field <|
    match field with
    | "strategy" => (fun s => { d with strategy := s }) <$> strategyOf value
    | "ttl" => (fun t => { d with ttl := t }) <$> Schema.optional Schema.natural value
    | "keep_expired_cache" =>
      (fun k => { d with keepExpired := k }) <$> Schema.optional Schema.boolean value
    | _ => Schema.fail (.noSuchField field)

def record : Schema.RecordKind CacheDirective := { name := "CacheDirective", ofEntries, set }

/-- A strategy name alone is short for a directive with that strategy. -/
def ofJson : Check CacheDirective
  | .str s => ofEntries [("strategy", .str s)]
  | value => Schema.record record.name ofEntries value

end CacheDirective

structure Api where
  name : String
  method : Api.Method
  /-- The URL path, in which a colon begins a parameter. -/
  path : String
  body : Option String := none
  response : Option String := none
  header : Option String := none
  cacheStrategy : Option CacheDirective := none
  returnData : Api.ReturnData := .model
  /-- The directory that receives a copy of the response model under another name. -/
  dirExtra : Option String := none
  deriving Repr, DecidableEq

namespace Api

def methodOf : Check Method :=
  Schema.choice Method.name Method.all

/-- Null means a model. -/
def returnDataOf : Check ReturnData
  | .null => .valid .model
  | value => Schema.choice ReturnData.name ReturnData.all value

def ofEntries (entries : Entries) : Checked Api :=
  Api.mk
    <$> Schema.required entries "name" Schema.nonemptyString
    <*> Schema.required entries "method" methodOf
    <*> Schema.required entries "path" Schema.string
    <*> Schema.withDefault entries "body" none (Schema.optional Schema.string)
    <*> Schema.withDefault entries "response" none (Schema.optional Schema.string)
    <*> Schema.withDefault entries "header" none (Schema.optional Schema.string)
    <*> Schema.withDefault entries "cache_strategy" none (Schema.optional CacheDirective.ofJson)
    <*> Schema.withDefault entries "return_data" .model returnDataOf
    <*> Schema.withDefault entries "dir_extra" none (Schema.optional Schema.string)

def set (a : Api) (field : String) (value : Json) : Checked Api :=
  Checked.under field <|
    match field with
    | "name" => (fun x => { a with name := x }) <$> Schema.nonemptyString value
    | "method" => (fun x => { a with method := x }) <$> methodOf value
    | "path" => (fun x => { a with path := x }) <$> Schema.string value
    | "body" => (fun x => { a with body := x }) <$> Schema.optional Schema.string value
    | "response" => (fun x => { a with response := x }) <$> Schema.optional Schema.string value
    | "header" => (fun x => { a with header := x }) <$> Schema.optional Schema.string value
    | "cache_strategy" =>
      (fun x => { a with cacheStrategy := x }) <$> Schema.optional CacheDirective.ofJson value
    | "return_data" => (fun x => { a with returnData := x }) <$> returnDataOf value
    | "dir_extra" => (fun x => { a with dirExtra := x }) <$> Schema.optional Schema.string value
    | _ => Schema.fail (.noSuchField field)

def record : Schema.RecordKind Api :=
  { name := "ApiConfig", ofEntries, set
    computed := ["path_params", "is_multipart", "is_sse", "applies_cache_strategy",
      "returns_model", "http_call"] }

def isParamStart (c : Char) : Bool := c.isAlpha || c == '_'

def isParamChar (c : Char) : Bool := c.isAlphanum || c == '_'

/-- The names after the colons of a URL path. -/
def paramsOf : List Char → List String
  | [] => []
  | [_] => []
  | c :: d :: rest =>
    if c = ':' ∧ isParamStart d then
      String.ofList (d :: rest.takeWhile isParamChar) :: paramsOf (d :: rest)
    else paramsOf (d :: rest)

/-- The parameters of the path, each once, in the order of appearance. -/
def pathParams (a : Api) : List String :=
  (paramsOf a.path.toList).eraseDups

def isMultipart (a : Api) : Bool := a.method.isMultipart

def isStream (a : Api) : Bool := a.method.isStream

/-- Submissions in parts and streams are never cached. -/
def usesCache (a : Api) : Bool := !a.isMultipart && !a.isStream

def returnsModel (a : Api) : Bool := a.returnData == .model

end Api

end DartScaffold
