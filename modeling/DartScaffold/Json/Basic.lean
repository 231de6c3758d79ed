import DartScaffold.Decimal.Shortest
import DartScaffold.Text.Quoted

/-!
JSON values: integers and floating-point numbers are apart, and an object is the list of its
entries in the order written. `Json.text` is the form in which messages show a value.
-/

namespace DartScaffold

inductive Json where
  | null
  | bool (b : Bool)
  | int (i : Int)
  | float (x : Binary64)
  | str (s : String)
  | arr (items : List Json)
  | obj (entries : List (String × Json))
  deriving Repr

/-- The values that hold others. -/
inductive Json.Container where
  | array
  | object
  deriving DecidableEq, Repr

/-- An object's entries, in order. -/
abbrev Entries := List (String × Json)

namespace Entries

def get? (entries : Entries) (key : String) : Option Json :=
  entries.lookup key

def keys (entries : Entries) : List String :=
  entries.map Prod.fst

def has (entries : Entries) (key : String) : Bool :=
  entries.any (·.1 == key)

/-- A key that is already there keeps its place and takes the new value. -/
def put (entries : Entries) (key : String) (value : Json) : Entries :=
  match entries with
  | [] => [(key, value)]
  | (k, v) :: rest => if k = key then (k, value) :: rest else (k, v) :: put rest key value

end Entries

namespace Json

instance : Inhabited Json := ⟨null⟩

mutual

def decEq : (a b : Json) → Decidable (a = b)
  | null, b => by
    cases b with
    | null => exact isTrue rfl
    | _ => exact isFalse (by simp)
  | bool x, b => by
    cases b with
    | bool y => exact decidable_of_iff (x = y) (by simp)
    | _ => exact isFalse (by simp)
  | int x, b => by
    cases b with
    | int y => exact decidable_of_iff (x = y) (by simp)
    | _ => exact isFalse (by simp)
  | float x, b => by
    cases b with
    | float y => exact decidable_of_iff (x = y) (by simp)
    | _ => exact isFalse (by simp)
  | str x, b => by
    cases b with
    | str y => exact decidable_of_iff (x = y) (by simp)
    | _ => exact isFalse (by simp)
  | arr xs, b => by
    cases b with
    | arr ys => exact match decEqItems xs ys with
      | isTrue h => isTrue (by rw [h])
      | isFalse h => isFalse (by simpa using h)
    | _ => exact isFalse (by simp)
  | obj xs, b => by
    cases b with
    | obj ys => exact match decEqEntries xs ys with
      | isTrue h => isTrue (by rw [h])
      | isFalse h => isFalse (by simpa using h)
    | _ => exact isFalse (by simp)

def decEqItems : (a b : List Json) → Decidable (a = b)
  | [], [] => isTrue rfl
  | [], _ :: _ => isFalse (by simp)
  | _ :: _, [] => isFalse (by simp)
  | x :: xs, y :: ys =>
    match decEq x y, decEqItems xs ys with
    | isTrue h, isTrue k => isTrue (by rw [h, k])
    | isFalse h, _ => isFalse (by simp [h])
    | _, isFalse k => isFalse (by simp [k])

def decEqEntries : (a b : List (String × Json)) → Decidable (a = b)
  | [], [] => isTrue rfl
  | [], _ :: _ => isFalse (by simp)
  | _ :: _, [] => isFalse (by simp)
  | (k, x) :: xs, (l, y) :: ys =>
    if h : k = l then
      match decEq x y, decEqEntries xs ys with
      | isTrue i, isTrue j => isTrue (by rw [h, i, j])
      | isFalse i, _ => isFalse (by simp [i])
      | _, isFalse j => isFalse (by simp [j])
    else isFalse (by simp [h])

end

instance : DecidableEq Json := decEq

/-- The name of a value's type in messages. -/
def typeName : Json → String
  | null => "NoneType"
  | bool _ => "bool"
  | int _ => "int"
  | float _ => "float"
  | str _ => "str"
  | arr _ => "list"
  | obj _ => "dict"

def boolText (b : Bool) : String := if b then "True" else "False"

mutual

/-- A value as messages show it. -/
def text : Json → String
  | null => "None"
  | bool b => boolText b
  | int i => toString i
  | float x => x.text
  | str s => Text.quoted s
  | arr items => "[" ++ itemsText items ++ "]"
  | obj entries => "\x7b" ++ entriesText entries ++ "\x7d"

def itemsText : List Json → String
  | [] => ""
  | [item] => item.text
  | item :: rest => item.text ++ ", " ++ itemsText rest

def entriesText : List (String × Json) → String
  | [] => ""
  | [(k, v)] => Text.quoted k ++ ": " ++ v.text
  | (k, v) :: rest => Text.quoted k ++ ": " ++ v.text ++ ", " ++ entriesText rest

end

/-- A string stands for itself, any other value as in `text`. -/
def plainText : Json → String
  | str s => s
  | v => v.text

/-- Null, false, zero and the empty string, list and object count as absent. -/
def isPresent : Json → Bool
  | null => false
  | bool b => b
  | int i => i != 0
  | float x => !x.isZero
  | str s => s != ""
  | arr items => !items.isEmpty
  | obj entries => !entries.isEmpty

end Json

end DartScaffold
