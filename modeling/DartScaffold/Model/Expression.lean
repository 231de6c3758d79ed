import DartScaffold.Dart.Field
import DartScaffold.Dart.Literal
import DartScaffold.Shape.Basic

/-!
Dart types and expressions for the fields of a model class. In an expression about the elements
of a list the element is called `e`; where `none` is answered an element needs no conversion.
-/

namespace DartScaffold.Model

def scalarType : Scalar → String
  | .int => "int"
  | .double => "double"
  | .bool => "bool"
  | .string => "String"
  | .datetime => "DateTime"
  | .dynamic => "dynamic"

/-- The type of a shape, where objects inside it are called `className`. -/
def dartType (className : String) : Shape → String
  | .scalar kind => scalarType kind
  | .object _ => className
  | .list element => s!"List<{dartType className element}>"

def nullable (type : String) : String :=
  if type = "dynamic" then type else type ++ "?"

/-- The value of an element in a map. -/
def elementToMap (dateCall : String) : Shape → Option String
  | .object _ => some "e.toMap()"
  | .list element => (elementToMap dateCall element).map fun e => s!"e.map((e) => {e}).toList()"
  | .scalar .datetime => some ("e" ++ dateCall)
  | .scalar _ => none

/-- The value of the field `name` in a map. -/
def fieldToMap (dateCall : String) (shape : Shape) (name : String) : String :=
  match shape with
  | .object _ => name ++ "?.toMap()"
  | .list element =>
    match elementToMap dateCall element with
    | some e => s!"{name}?.map((e) => {e}).toList()"
    | none => name
  | .scalar .datetime => s!"{name}?{dateCall}"
  | .scalar _ => name

/-- Drops the elements whose date text did not parse. -/
def dropUnparsed : Shape → String
  | .scalar .datetime => ".whereType<DateTime>()"
  | _ => ""

def elementFromMap (className : String) : Shape → Option String
  | .object _ => some s!"{className}.fromMap(e)"
  | .list element =>
    match elementFromMap className element with
    | some e =>
      some (s!"List.from((e as List).where((element) => element != null)" ++
        s!".map((e) => {e}){dropUnparsed element})")
    | none => some "List.from(e)"
  | .scalar .int => some "int.tryParse(e.toString()) ?? 0"
  | .scalar .double => some "double.tryParse(e.toString()) ?? 0"
  | .scalar .datetime => some "DateTime.tryParse(e.toString())"
  | .scalar _ => none

/-- A field read from the expression `source`. -/
def fieldFromMap (className : String) (shape : Shape) (source : String) : String :=
  match shape with
  | .object _ => s!"{source} == null ? null : {className}.fromMap({source})"
  | .list element =>
    match elementFromMap className element with
    | some e =>
      s!"{source} is List ? List.from(({source} as List).where((element) => element != null)" ++
        s!".map((e) => {e}){dropUnparsed element}) : null"
    | none => s!"{source} is List ? List.from({source}) : null"
  | .scalar .int => s!"int.tryParse({source}?.toString() ?? '')"
  | .scalar .double => s!"double.tryParse({source}?.toString() ?? '')"
  | .scalar .datetime => s!"DateTime.tryParse({source} ?? '')"
  | .scalar _ => source

/-- An element converted by `method`, `toEntity` or `toResponse`. -/
def elementConverted (method : String) : Shape → Option String
  | .object _ => some s!"e.{method}()"
  | .list element => (elementConverted method element).map fun e => s!"e.map((e) => {e}).toList()"
  | .scalar _ => none

def fieldConverted (method : String) (shape : Shape) (name : String) : String :=
  match shape with
  | .object _ => s!"{name}?.{method}()"
  | .list element =>
    match elementConverted method element with
    | some e => s!"{name}?.map((e) => {e}).toList()"
    | none => name
  | .scalar _ => name

end DartScaffold.Model
