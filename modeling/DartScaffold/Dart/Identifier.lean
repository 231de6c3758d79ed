import DartScaffold.Text.Case

/-!
Dart identifiers made from JSON keys: camel case, never starting with a digit, never a keyword
and never the name of a member that a model class already has.
-/

namespace DartScaffold.Dart

/-- Reserved words, built-in identifiers and contextual keywords. -/
def keywords : List String :=
  ["abstract", "as", "assert", "async", "await", "base", "break", "case", "catch", "class",
   "const", "continue", "covariant", "default", "deferred", "do", "dynamic", "else", "enum",
   "export", "extends", "extension", "external", "factory", "false", "final", "finally", "for",
   "function", "get", "hide", "if", "implements", "import", "in", "interface", "is", "late",
   "library", "mixin", "new", "null", "on", "operator", "part", "required", "rethrow", "return",
   "sealed", "set", "show", "static", "super", "switch", "sync", "this", "throw", "true", "try",
   "typedef", "var", "void", "when", "while", "with", "yield"]

/-- The members of every model class. -/
def generatedMembers : List String :=
  ["props", "toMap", "toJson", "fromMap", "fromJson", "copyWith", "toEntity", "toResponse",
   "hashCode", "runtimeType", "stringify"]

def startsWithDigit (name : String) : Bool :=
  match name.toList with
  | c :: _ => c.isDigit
  | [] => false

def fieldName (key : String) : String :=
  let camel := Text.camelCase key
  if camel = "" then "value"
  else
    let name := if startsWithDigit camel then "value" ++ camel else camel
    if keywords.contains name || generatedMembers.contains name then name ++ "Value" else name

/-- A class name made from a field name. -/
def classStem (name : String) : String :=
  let pascal := Text.pascalCase name
  if pascal = "" then "Value"
  else if startsWithDigit pascal then "Value" ++ pascal
  else pascal

end DartScaffold.Dart
