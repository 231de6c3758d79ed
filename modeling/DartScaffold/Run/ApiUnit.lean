import DartScaffold.Layer.UseCase
import DartScaffold.Mapper
import DartScaffold.Model.File
import DartScaffold.Run.Site
import DartScaffold.Validation.Entry

/-!
The unit of one API: its entry is checked, its samples are read, its own files are written, and
last its fragments are merged into the files that it shares with the other APIs of its page. So a
bad entry or a bad sample changes no file at all.
-/

namespace DartScaffold.Run

open Disk (Location)

/-- What the samples of an API show. -/
structure Samples where
  body : Entries
  bodyList : Bool
  headers : Option Entries
  response : Entries
  responseList : Bool
  deriving Repr

namespace ApiUnit

def checkedApi (site : Site) (name : String) (raw : Json) : Task Api := do
  let (warnings, api) ← Task.ofExcept (Validation.buildApi (.str name) raw site.context)
  Task.tellWarnings .checking (warnings.map fun w => s!"{w.message} (api={name})")
  Task.ofExcept api

/-- The static headers. A file that is not there is passed over with a warning. -/
def headers (plan : Plan) (api : Api) : Task (Twin (Option Entries)) := do
  match ← Task.ofExcept (plan.place? api.header) with
  | none => return .same none
  | some place =>
    if ← Task.isFile place then
      let sample ← Task.sample place
      Task.ofExcept (sample.traverse fun
        | .obj entries => .ok (some entries)
        | _ => .error (.sample place.toString .headersNotObject))
    else
      let warning := s!"Header file {place.toString} not found; static headers skipped."
      Task.tellWarnings .generation [warning]
      Task.addWarnings [warning]
      return .same none

def samples (plan : Plan) (api : Api) : Task (Twin Samples) := do
  let body ← Task.shape plan api.body
  let headers ← headers plan api
  let response ←
    if api.returnsModel then Task.shape plan api.response else pure (.same ([], false))
  return do
    let (body, bodyList) ← body
    let (response, responseList) ← response
    return { body, bodyList, headers := ← headers, response, responseList }

def fileStem (api : Api) : String := Text.snakeCase api.name

def bodyPath (api : Api) : String := s!"data/models/body/{fileStem api}_body.dart"

def responsePath (api : Api) : String := s!"data/models/response/{fileStem api}_response.dart"

def entityPath (api : Api) : String := s!"domain/entities/{fileStem api}_entity.dart"

def extraPath (api : Api) : String := s!"{fileStem api}_extra.dart"

def saveModel (plan : Plan) (directory : Location) (file : Twin Model.File) : Task Unit :=
  Task.save plan (directory.child file.first.relativePath) (Model.File.content <$> file)

def bodyOptions (api : Api) : Model.BodyOptions :=
  { pathParams := api.pathParams, multipart := api.isMultipart }

/-- The body model, and its test if tests are wanted. -/
def saveBody (plan : Plan) (site : Site) (api : Api) (samples : Twin Samples) : Task Unit := do
  let fields ← Task.ofExcept (samples.traverse fun s => Sample.fieldsOf (.obj s.body) api.body)
  let policy : Model.Policy := { kind := .body, dateCall := site.settings.bodyDateCall }
  let model : Twin (Model.File × ClassName.Registry) := fields.map fun fields =>
    Model.emit policy { api := api.name } (bodyOptions api) (bodyPath api) (.object fields)
  saveModel plan site.directory (Prod.fst <$> model)
  if site.wantsTests plan then
    let subject := site.testSubject api
    let test : Twin String := do
      let s ← samples
      let (_, registry) ← model
      return ModelTest.bodyTest subject policy (registry.className .body) (← fields)
        (.obj s.body) s.bodyList (bodyOptions api)
    Task.save plan (site.testDirectory.child subject.bodyPath) test

/-- The extra model, where a directory is given for it. -/
def saveExtra (plan : Plan) (api : Api) (file : Twin Model.File) : Task Unit := do
  match ← Task.ofExcept (plan.place? api.dirExtra) with
  | none => pure ()
  | some directory => saveModel plan directory file

/-- The response and the entity model, the response's test and the extra model where they are
wanted, and the mapper's fragment. One registry names the classes of all of them. -/
def saveResponse (plan : Plan) (site : Site) (api : Api) (samples : Twin Samples) :
    Task (Twin Aggregate.Fragment) := do
  let fields ← Task.ofExcept
    (samples.traverse fun s => Sample.fieldsOf (.obj s.response) api.response)
  let shape := Shape.object <$> fields
  let dateCall := site.settings.responseDateCall
  let policy : Model.Policy := { kind := .response, dateCall }
  let response := Model.emit policy { api := api.name } {} (responsePath api) <$> shape
  saveModel plan site.directory (Prod.fst <$> response)
  let entity : Twin (Model.File × ClassName.Registry) := do
    let (_, registry) ← response
    return Model.emit { kind := .entity } registry {} (entityPath api) (← shape)
  saveModel plan site.directory (Prod.fst <$> entity)
  let scope := (← get).memory.scope
  let mapper : Twin (Aggregate.Fragment × ClassName.Registry × ClassName.Scope) := do
    let (_, registry) ← entity
    return Mapper.emit registry scope (← shape)
  Task.useScope mapper.first.2.2
  let registry := (fun (_, registry, _) => registry) <$> mapper
  if site.wantsTests plan then
    let subject := site.testSubject api
    let test : Twin String := do
      let s ← samples
      return ModelTest.responseTest subject policy ((← registry).className .response) (← fields)
        (.obj s.response) s.responseList
    Task.save plan (site.testDirectory.child subject.responsePath) test
  let extra : Twin Model.File := do
    return (Model.emit { kind := .extra, dateCall } (← registry) {} (extraPath api) (← shape)).1
  saveExtra plan api extra
  return Prod.fst <$> mapper

/-- The use case, and the fragments of the layers. -/
def saveLayers (plan : Plan) (site : Site) (api : Api) (samples : Twin Samples) :
    Task (List (Twin Aggregate.Fragment)) := do
  let project ← Task.projectName plan
  let context := samples.map fun s =>
    { api, project
      page := site.page.name
      apps := site.feature.apps
      bodyList := s.bodyList
      responseList := s.responseList
      headers := s.headers : Layer.Context }
  let fragments ← Task.ofExcept (context.traverse Layer.Context.fragments)
  Task.save plan (site.directory.child context.first.useCasePath)
    (Layer.Context.useCase <$> context)
  return fragments.elements

def task (plan : Plan) (site : Site) (name : String) (raw : Json) : Task Unit := do
  let api ← checkedApi site name raw
  let samples ← samples plan api
  saveBody plan site api samples
  let mapper ← if api.returnsModel then List.singleton <$> saveResponse plan site api samples
    else pure []
  let layers ← if site.wantsLayers plan then saveLayers plan site api samples else pure []
  (mapper ++ layers).forM (Task.patch plan site.directory)

/-- Generates one API. A failure that concerns it alone is part of its result. -/
def generate (plan : Plan) (site : Site) (name : String) (raw : Json) (memory : Memory)
    (project : Project) : Except Failure UnitResult × Memory × Project :=
  let (outcome, w) := (task plan site name raw).run.run { project, memory }
  let result := { site.result (some name) with
    warnings := w.trail.warnings, files := w.trail.files }
  match outcome with
  | .ok () => (.ok result, w.memory, w.project)
  | .error failure =>
    if failure.isLocal then
      let project := w.project.tell (Log.error .generation s!"✗ {result.label}: {failure.message}")
      (.ok { result with failure := some failure }, w.memory, project)
    else (.error failure, w.memory, w.project)

end ApiUnit

end DartScaffold.Run
