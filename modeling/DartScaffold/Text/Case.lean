/-!
Words of an identifier and the spellings made of them. Both `words` and `snakeParts` cut a text
into pieces of ASCII letters and digits at a change of character class; they differ in where they
cut: `words` parts letters from digits, `snakeParts` does not.
-/

namespace DartScaffold.Text

def startsLower : List Char → Bool
  | c :: _ => c.isLower
  | [] => false

/-- Whether `a` belongs to the same word as the text after it. A capital stays with the capitals
after it, but the last capital before a small letter begins the next word. -/
def joinsWord (a : Char) : List Char → Bool
  | [] => false
  | b :: rest =>
    (a.isLower && b.isLower) || (a.isUpper && b.isLower) ||
    (a.isUpper && b.isUpper && !startsLower rest) || (a.isDigit && b.isDigit)

/-- Whether `a` belongs to the same part of a snake-case name as the text after it. -/
def joinsSnake (a : Char) : List Char → Bool
  | [] => false
  | b :: rest =>
    b.isAlphanum &&
      !((a.isLower || a.isDigit) && b.isUpper) && !(a.isUpper && b.isUpper && startsLower rest)

/-- The maximal pieces of letters and digits in which each character joins the next. -/
def pieces (joins : Char → List Char → Bool) : List Char → List (List Char)
  | [] => []
  | c :: rest =>
    if c.isAlphanum then
      if joins c rest then
        match pieces joins rest with
        | [] => [[c]]
        | piece :: more => (c :: piece) :: more
      else [c] :: pieces joins rest
    else pieces joins rest

/-- The words of a name, in small letters. -/
def words (name : List Char) : List (List Char) :=
  (pieces joinsWord name).map (List.map Char.toLower)

/-- The parts that an underscore separates in snake case, in small letters. -/
def snakeParts (name : List Char) : List (List Char) :=
  (pieces joinsSnake name).map (List.map Char.toLower)

def capitalize : List Char → List Char
  | [] => []
  | c :: rest => c.toUpper :: rest

def snakeCase (name : String) : String :=
  String.ofList (['_'].intercalate (snakeParts name.toList))

def pascalCase (name : String) : String :=
  String.ofList ((words name.toList).flatMap capitalize)

def camelCase (name : String) : String :=
  match words name.toList with
  | [] => ""
  | first :: rest => String.ofList (first ++ rest.flatMap capitalize)

end DartScaffold.Text
