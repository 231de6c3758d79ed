/-!
The fixed vocabularies of an API entry: HTTP methods, cache strategies and what a call returns.
-/

namespace DartScaffold.Api

/-- HTTP verbs, multipart submissions, and verbs whose answer is a stream of server-sent events. -/
inductive Method where
  | get
  | post
  | put
  | patch
  | delete
  | multipart
  | postMultipart
  | patchMultipart
  | getSse
  | postSse
  | putSse
  | patchSse
  | deleteSse
  deriving DecidableEq, Repr

namespace Method

def all : List Method :=
  [get, post, put, patch, delete, multipart, postMultipart, patchMultipart, getSse, postSse,
   putSse, patchSse, deleteSse]

def name : Method → String
  | get => "get"
  | post => "post"
  | put => "put"
  | patch => "patch"
  | delete => "delete"
  | multipart => "multipart"
  | postMultipart => "postMultipart"
  | patchMultipart => "patchMultipart"
  | getSse => "getSse"
  | postSse => "postSse"
  | putSse => "putSse"
  | patchSse => "patchSse"
  | deleteSse => "deleteSse"

def isMultipart : Method → Bool
  | multipart | postMultipart | patchMultipart => true
  | _ => false

def isStream : Method → Bool
  | getSse | postSse | putSse | patchSse | deleteSse => true
  | _ => false

/-- The method of the HTTP client that makes the call. -/
def call : Method → String
  | multipart => "postMultipart"
  | m => m.name

end Method

inductive CacheStrategy where
  | asyncOrCache
  | cacheOrAsync
  | justAsync
  | justCache
  deriving DecidableEq, Repr

namespace CacheStrategy

def all : List CacheStrategy := [asyncOrCache, cacheOrAsync, justAsync, justCache]

def name : CacheStrategy → String
  | asyncOrCache => "async_or_cache"
  | cacheOrAsync => "cache_or_async"
  | justAsync => "just_async"
  | justCache => "just_cache"

end CacheStrategy

inductive ReturnData where
  | model
  | header
  | bodyBytes
  | bodyString
  | statusCode
  | raw
  deriving DecidableEq, Repr

namespace ReturnData

def all : List ReturnData := [model, header, bodyBytes, bodyString, statusCode, raw]

def name : ReturnData → String
  | model => "model"
  | header => "header"
  | bodyBytes => "body_bytes"
  | bodyString => "body_string"
  | statusCode => "status_code"
  | raw => "raw"

/-- An event of a stream is a text, so it can be a model, that text, or what arrives. -/
def isStreamable : ReturnData → Bool
  | model | bodyString | raw => true
  | _ => false

end ReturnData

end DartScaffold.Api
