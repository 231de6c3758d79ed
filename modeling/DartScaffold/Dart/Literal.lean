import DartScaffold.Json.Basic

/-!
Dart literals. A string literal is single-quoted, and a backslash stands before each backslash,
quote and dollar sign of the text. Maps are written with or without their type arguments.
-/

namespace DartScaffold.Dart

def escapeChar (c : Char) : List Char :=
  if c = '\\' ∨ c = '\'' ∨ c = '$' then ['\\', c] else [c]

def stringLiteral (text : String) : String :=
  String.ofList ('\'' :: text.toList.flatMap escapeChar ++ ['\''])

/-- What stands before the brace of a map literal. -/
inductive MapStyle where
  | plain
  | typed
  deriving DecidableEq, Repr

def MapStyle.head : MapStyle → String
  | plain => ""
  | typed => "<String, dynamic>"

mutual

def literal (style : MapStyle) : Json → String
  | .null => "null"
  | .bool b => if b then "true" else "false"
  | .int i => toString i
  | .float x => x.text
  | .str s => stringLiteral s
  | .arr items => "[" ++ literalItems style items ++ "]"
  | .obj entries => style.head ++ "\x7b" ++ literalEntries style entries ++ "\x7d"

def literalItems (style : MapStyle) : List Json → String
  | [] => ""
  | [item] => literal style item
  | item :: rest => literal style item ++ ", " ++ literalItems style rest

def literalEntries (style : MapStyle) : List (String × Json) → String
  | [] => ""
  | [(k, v)] => stringLiteral k ++ ": " ++ literal style v
  | (k, v) :: rest =>
    stringLiteral k ++ ": " ++ literal style v ++ ", " ++ literalEntries style rest

end

end DartScaffold.Dart
