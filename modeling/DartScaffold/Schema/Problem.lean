/-!
What is wrong with the value of a field, and where the field stands.
-/

namespace DartScaffold.Schema

inductive Cause where
  | missing
  | notString
  | emptyString
  | notDictionary
  | notList
  /-- Neither a dictionary nor a record of the given name. -/
  | notRecord (name : String)
  | notBoolean
  | unreadableBoolean
  | notInteger
  | unreadableInteger
  | fractionalInteger
  | notFinite
  | hugeInteger
  | negativeInteger
  | notAmong (options : List String)
  | unknownKey
  | noSuchField (name : String)
  deriving DecidableEq, Repr

/-- The options in quotes, the last after an "or". -/
def choiceText : List String → String
  | [] => ""
  | [a] => "'" ++ a ++ "'"
  | [a, b] => "'" ++ a ++ "' or '" ++ b ++ "'"
  | a :: rest => "'" ++ a ++ "', " ++ choiceText rest

def Cause.message : Cause → String
  | missing => "Field required"
  | notString => "Input should be a valid string"
  | emptyString => "String should have at least 1 character"
  | notDictionary => "Input should be a valid dictionary"
  | notList => "Input should be a valid list"
  | notRecord name => "Input should be a valid dictionary or instance of " ++ name
  | notBoolean => "Input should be a valid boolean"
  | unreadableBoolean => "Input should be a valid boolean, unable to interpret input"
  | notInteger => "Input should be a valid integer"
  | unreadableInteger =>
    "Input should be a valid integer, unable to parse string as an integer"
  | fractionalInteger => "Input should be a valid integer, got a number with a fractional part"
  | notFinite => "Input should be a finite number"
  | hugeInteger => "Unable to parse input string as an integer, exceeded maximum size"
  | negativeInteger => "Input should be greater than or equal to 0"
  | notAmong options => "Input should be " ++ choiceText options
  | unknownKey => "Extra inputs are not permitted"
  | noSuchField name => "Object has no attribute '" ++ name ++ "'"

structure Problem where
  /-- Keys and indices from the outermost record to the field. -/
  place : List String
  cause : Cause
  deriving DecidableEq, Repr

def Problem.message (p : Problem) : String :=
  ".".intercalate p.place ++ ": " ++ p.cause.message

/-- All problems on one line. -/
def report (problems : List Problem) : String :=
  "; ".intercalate (problems.map Problem.message)

/-- The same with a heading that counts the problems of the record, and each on lines of its own. -/
def outline (record : String) (problems : List Problem) : String :=
  let count := problems.length
  let errors := if count = 1 then "error" else "errors"
  "\n".intercalate (s!"{count} validation {errors} for {record}" ::
    problems.map fun p => ".".intercalate p.place ++ "\n  " ++ p.cause.message)

end DartScaffold.Schema
