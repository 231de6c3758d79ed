import DartScaffold.Model.Expression
import DartScaffold.Model.Policy

/-!
The text of one model class. Its members are, in this order: those that its kind brings
(`rawBody`, `files`), the path parameters of the URL, and one field for each key. The text is a
list of sections with a blank line between them.
-/

namespace DartScaffold.Model

open Dart (Field stringLiteral)

/-- What only the root class of a request body can have. -/
structure BodyOptions where
  pathParams : List String := []
  multipart : Bool := false
  deriving Repr, DecidableEq

/-- The members of one class. -/
structure Members where
  /-- Names and types of the members that the kind brings. -/
  fixed : List (String × String)
  params : List String
  fields : List Field
  deriving Repr

def members (kind : Kind) (options : BodyOptions) (path : Path) (node : Fields) : Members :=
  let fixed :=
    (if kind.isBody then [("rawBody", "Map<String, dynamic>?")] else []) ++
    (if options.multipart then [("files", "Map<String, List<File>>?")] else [])
  let params := options.pathParams.map Dart.fieldName
  { fixed, params, fields := Dart.fieldsAt path (fixed.map Prod.fst ++ params) node }

def Members.names (m : Members) : List String :=
  m.fixed.map Prod.fst ++ m.params ++ m.fields.map Field.name

def constructorLines (name : String) (m : Members) : List String :=
  let args := m.fixed.map (fun (member, _) => s!"this.{member},") ++
    m.params.map (fun p => s!"required this.{p},") ++ m.fields.map (fun f => s!"this.{f.name},")
  if args.isEmpty then [s!"  const {name}();"]
  else [s!"  const {name}(\x7b"] ++ args.map ("    " ++ ·) ++ ["  \x7d);"]

def fromMapLines (nameOf : Path → String) (name : String) (fields : List Field) : List String :=
  let entry (f : Field) : String :=
    let source := s!"map[{stringLiteral f.key}]"
    s!"      {f.name}: {fieldFromMap (nameOf f.path) f.shape source},"
  [s!"  factory {name}.fromMap(Map<String, dynamic> map) \x7b"] ++
    (if fields.isEmpty then [s!"    return const {name}();"]
     else [s!"    return {name}("] ++ fields.map entry ++ ["    );"]) ++
    ["  \x7d"]

def fromJsonLines (name : String) : List String :=
  [s!"  factory {name}.fromJson(String source) =>",
   s!"      {name}.fromMap(json.decode(source));"]

def fieldType (nameOf : Path → String) (f : Field) : String :=
  nullable (dartType (nameOf f.path) f.shape)

def declarationLines (nameOf : Path → String) (m : Members) : List String :=
  m.fixed.map (fun (member, type) => s!"  final {type} {member};") ++
    m.params.map (fun p => s!"  final String {p};") ++
    m.fields.map (fun f => s!"  final {fieldType nameOf f} {f.name};")

def toMapLines (policy : Policy) (fields : List Field) : List String :=
  let entry (f : Field) : String :=
    let guard := if policy.kind.isBody then s!"if ({f.name} != null) " else ""
    s!"{guard}{stringLiteral f.key}: {fieldToMap policy.dateCall f.shape f.name},"
  let raw :=
    if policy.kind.isBody then
      ["if (rawBody?.isNotEmpty ?? false) ...rawBody ?? \x7b\x7d,"]
    else []
  let entries := raw ++ fields.map entry
  ["  Map<String, dynamic> toMap() \x7b"] ++
    (if entries.isEmpty then ["    return \x7b\x7d;"]
     else ["    return \x7b"] ++ entries.map ("      " ++ ·) ++ ["    \x7d;"]) ++
    ["  \x7d"]

def toJsonLines : List String :=
  ["  String toJson() => json.encode(toMap());"]

def copyWithLines (nameOf : Path → String) (name : String) (fields : List Field) : List String :=
  if fields.isEmpty then
    [s!"  {name} copyWith() \x7b", s!"    return const {name}();", "  \x7d"]
  else
    [s!"  {name} copyWith(\x7b"] ++
      fields.map (fun f => s!"    {fieldType nameOf f} {f.name},") ++
      ["  \x7d) \x7b", s!"    return {name}("] ++
      fields.map (fun f => s!"      {f.name}: {f.name} ?? this.{f.name},") ++
      ["    );", "  \x7d"]

def propsLines (names : List String) : List String :=
  ["  @override", "  List<Object?> get props => [" ++ ", ".intercalate names ++ "];"]

/-- The sections of a class, some of which may be empty. -/
def classSections (policy : Policy) (nameOf : Path → String) (name : String) (m : Members) :
    List (List String) :=
  let kind := policy.kind
  [constructorLines name m,
   if kind.readsJson then fromMapLines nameOf name m.fields else [],
   if kind.readsJson then fromJsonLines name else [],
   declarationLines nameOf m,
   if kind.writesMap then toMapLines policy m.fields else [],
   if kind.readsJson then toJsonLines else [],
   if kind.copies then copyWithLines nameOf name m.fields else [],
   propsLines m.names]

/-- The class for the object at `path`; `nameOf` gives the names of the classes it refers to. -/
def classText (policy : Policy) (nameOf : Path → String) (options : BodyOptions) (path : Path)
    (node : Fields) : String :=
  let name := nameOf path
  let sections := classSections policy nameOf name (members policy.kind options path node)
  let body := [""].intercalate (sections.filter fun lines => !lines.isEmpty)
  "\n".intercalate ([s!"class {name} extends Equatable \x7b"] ++ body ++ ["\x7d"])

end DartScaffold.Model
