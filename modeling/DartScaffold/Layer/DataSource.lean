import DartScaffold.Aggregate.Fragment
import DartScaffold.Aggregate.Marker
import DartScaffold.Dart.Literal
import DartScaffold.Layer.Context

/-!
The remote data source of a page: an interface and an implementation that calls the HTTP client,
with one method for each API.
-/

namespace DartScaffold.Layer

open Aggregate (Fragment anchorMarker)

/-- The constructor call for a cache strategy. The one that never uses the cache takes no
arguments. -/
def cacheStrategyCall (strategy : String) (ttl : Option Int) (keep : Option Bool) : String :=
  let name := Text.pascalCase strategy ++ "Strategy"
  let ttlArg := ttl.map fun t => s!"ttlValue: const Duration(minutes: {t})"
  let keepArg := keep.map fun k => "keepExpiredCache: " ++ if k then "true" else "false"
  let args := ttlArg.toList ++ keepArg.toList
  if strategy = Api.CacheStrategy.justAsync.name ∨ args.isEmpty then name ++ "()"
  else name ++ "(" ++ ", ".intercalate args ++ ",)"

/-- Static headers, and over them those of the caller. -/
def headersExpression (headers : Json) : String :=
  "<String, dynamic>" ++ Dart.literal .plain headers ++
    ".map((key, value) => MapEntry(key, value.toString()))..addAll(headers ?? \x7b\x7d)"

namespace Context

def bodyArguments (c : Context) : List String :=
  if c.bodyList then ["body: jsonEncode(body.map((e) => e.toMap()).toList()),"]
  else if c.api.isMultipart then
    ["body: body.toMap().map((key, value) => MapEntry(key, value.toString())),",
     "files: body.files,"]
  else ["body: body.toMap(),"]

def headersArgument (c : Context) : String :=
  match c.headers with
  | some headers => s!"headers: {headersExpression (.obj headers)},"
  | none => "headers: headers,"

def cacheArguments (c : Context) : List String :=
  if c.api.usesCache then
    match c.api.cacheStrategy with
    | none => ["cacheStrategy: cacheStrategy,"]
    | some d =>
      let default := cacheStrategyCall d.strategy.name d.ttl d.keepExpired
      [s!"cacheStrategy: cacheStrategy ?? {default},"]
  else []

def httpArguments (c : Context) : Except Failure (List String) := do
  let endpoint ← c.endpoint
  return [endpoint ++ ","] ++ c.bodyArguments ++ [c.headersArgument] ++ c.cacheArguments

/-- A list of models read from `source`; a single object counts as a list of one. -/
def listResult (c : Context) (keyword source : String) : List String :=
  let model := c.apiClass ++ "Response"
  [s!"final mapResponse = jsonDecode({source});",
   s!"{keyword} mapResponse is List",
   s!"    ? List.from(mapResponse.map((e) => {model}.fromMap(e)))",
   s!"    : [{model}.fromMap(mapResponse)];"]

/-- What is returned from the HTTP response. -/
def futureResult (c : Context) : List String :=
  match c.api.returnData with
  | .model =>
    if c.responseList then c.listResult "return" "response.body"
    else [s!"return {c.apiClass}Response.fromJson(response.body);"]
  | .header => ["return response.headers;"]
  | .bodyBytes => ["return response.bodyBytes;"]
  | .bodyString => ["return response.body;"]
  | .statusCode => ["return response.statusCode;"]
  | .raw => ["return response;"]

/-- What is passed on of an event. -/
def streamResult (c : Context) : List String :=
  match c.api.returnData with
  | .model =>
    if c.responseList then c.listResult "yield" "response"
    else [s!"yield {c.apiClass}Response.fromJson(response);"]
  | _ => ["yield response;"]

def dataSourceBody (c : Context) : Except Failure (List String) := do
  let args := (← c.httpArguments).map ("      " ++ ·)
  let call := c.api.method.call
  if c.api.isStream then
    return [s!"    final responses = http.{call}("] ++ args ++
      ["    );", "    await for (final response in responses) \x7b"] ++
      c.streamResult.map ("      " ++ ·) ++ ["    \x7d"]
  else
    return [s!"    final response = await http.{call}("] ++ args ++ ["    );"] ++
      c.futureResult.map ("    " ++ ·)

def dataSourceSkeleton (c : Context) : String :=
  let page := c.pageClass
  "\n".intercalate
    [coreImport,
     "",
     s!"abstract class {page}RemoteDataSource \x7b",
     s!"  {anchorMarker interfaceSection}",
     "\x7d",
     "",
     s!"class {page}RemoteDataSourceImpl implements {page}RemoteDataSource \x7b",
     s!"  {page}RemoteDataSourceImpl(\x7brequired this.http\x7d);",
     "",
     "  final MorphemeHttp http;",
     "",
     s!"  {anchorMarker implementationSection}",
     "\x7d",
     ""]

def dataSourceImports (c : Context) : List String :=
  (if c.bodyList || c.responseList then ["import 'dart:convert';"] else []) ++
  c.modelImports "../models/body" none ++
  (if c.api.returnsModel then [s!"import '../models/response/{c.apiFile}_response.dart';"]
   else [])

def dataSource (c : Context) : Except Failure Fragment := do
  let type := s!"{c.futureClass}<{c.responseClass}>"
  let interface := c.signature type c.apiMethod ";"
  let implementation := ["  @override"] ++ c.signature type c.apiMethod c.asyncEnding ++
    (← c.dataSourceBody) ++ ["  \x7d"]
  return {
    kind := .remoteDataSource
    api := c.api.name
    relativePath := s!"data/datasources/{c.pageFile}_remote_data_source.dart"
    skeleton := c.dataSourceSkeleton
    imports := c.dataSourceImports
    blocks := [(interfaceSection, "\n".intercalate interface),
      (implementationSection, "\n".intercalate implementation)] }

end Context

end DartScaffold.Layer
