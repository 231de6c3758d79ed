import DartScaffold.Config.Loading

/-!
The configuration that a new project starts with: a commented file, and the directories of the
samples that it names.
-/

namespace DartScaffold.Config

open Disk (Location)

def starterLines : List String :=
  ["# json2dart configuration",
   "#",
   "# level 1: feature name",
   "# level 2: page name",
   "# level 3: api name (a page can hold several apis)",
   "#",
   "# method: get, post, put, patch, delete, multipart, postMultipart,",
   "#         patchMultipart, getSse, postSse, putSse, patchSse, deleteSse",
   "# cache_strategy: async_or_cache, cache_or_async, just_async, just_cache",
   "#   either a name or \x7bstrategy, ttl (minutes), keep_expired_cache\x7d",
   "# return_data: model (default), header, body_bytes, body_string,",
   "#              status_code, raw",
   "# dir_extra: directory that receives an extra copy of the response model",
   "",
   "json2dart:",
   "  body_format_date_time: yyyy-MM-dd",
   "  response_format_date_time: yyyy-MM-dd HH:mm",
   "  api: true",
   "  endpoint: true",
   "  unit-test: false",
   "  replace: false",
   "",
   "  environment_url:",
   "    - &base_url BASE_URL",
   "",
   "  remote:",
   "    .login: &login",
   "      base_url: *base_url",
   "      path: /login",
   "      method: post",
   "      # header: json2dart/json/header/login_header.json",
   "      body: json2dart/json/body/login_body.json",
   "      response: json2dart/json/response/login_response.json",
   "      cache_strategy: async_or_cache",
   "    .user_detail: &user_detail",
   "      base_url: *base_url",
   "      path: /users/:user_id",
   "      method: get",
   "      body: json2dart/json/body/user_detail_body.json",
   "      response: json2dart/json/response/user_detail_response.json",
   "      cache_strategy:",
   "        strategy: cache_or_async",
   "        ttl: 60",
   "        keep_expired_cache: true",
   "",
   "auth:",
   "  login:",
   "    login: *login",
   "  profile:",
   "    user_detail: *user_detail"]

def starterText : String :=
  "\n".intercalate starterLines ++ "\n"

def sampleDirectories : List String := ["json/body", "json/response"]

/-- Creates the directories that are missing, and gives them. -/
def createDirectories (disk : Disk) : List Location → Except Failure (List Location) × Disk
  | [] => (.ok [], disk)
  | place :: rest =>
    match disk.isDirectory place with
    | .error e => (.error (.disk e), disk)
    | .ok true => createDirectories disk rest
    | .ok false =>
      match disk.makeDirectory place with
      | (.error e, disk) => (.error (.disk e), disk)
      | (.ok (), disk) =>
        let (created, disk) := createDirectories disk rest
        (created.map (place :: ·), disk)

/-- Creates what is missing, and gives it. A configuration file that is there stays as it is. -/
def initialise (disk : Disk) (root : Location) : Except Failure (List Location) × Disk :=
  let file := (directory root).child fileName
  let directories := sampleDirectories.map (directory root).child
  match disk.occupied file with
  | .error e => (.error (.disk e), disk)
  | .ok true => createDirectories disk directories
  | .ok false =>
    match disk.writeText .replace file starterText with
    | (.error failure, disk) => (.error failure, disk)
    | (.ok (), disk) =>
      let (created, disk) := createDirectories disk directories
      (created.map (file :: ·), disk)

end DartScaffold.Config
