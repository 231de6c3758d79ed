import DartScaffold.Json.Basic
import DartScaffold.Schema.Integer
import DartScaffold.Schema.Problem

/-!
Checks that turn the value of a field into a typed one. The fields of a record are checked
independently, so the problems of all of them are reported, in the order of the fields.
-/

namespace DartScaffold.Schema

inductive Checked (α : Type) where
  | valid (value : α)
  | invalid (problems : List Problem)
  deriving Repr

namespace Checked

def problems {α : Type} : Checked α → List Problem
  | valid _ => []
  | invalid ps => ps

def map {α β : Type} (f : α → β) : Checked α → Checked β
  | valid a => valid (f a)
  | invalid ps => invalid ps

def ap {α β : Type} : Checked (α → β) → Checked α → Checked β
  | valid f, c => c.map f
  | invalid ps, c => invalid (ps ++ c.problems)

instance : Functor Checked where
  map := map

instance : Pure Checked where
  pure := valid

instance : Seq Checked where
  seq f c := ap f (c ())

/-- Moves the places of all problems under `key`. -/
def under {α : Type} (key : String) : Checked α → Checked α
  | valid a => valid a
  | invalid ps => invalid (ps.map fun p => { p with place := key :: p.place })

def toExcept {α : Type} : Checked α → Except (List Problem) α
  | valid a => .ok a
  | invalid ps => .error ps

end Checked

abbrev Check (α : Type) := Json → Checked α

def fail {α : Type} (cause : Cause) : Checked α :=
  .invalid [⟨[], cause⟩]

def string : Check String
  | .str s => .valid s
  | _ => fail .notString

def nonemptyString : Check String
  | .str s => if s = "" then fail .emptyString else .valid s
  | _ => fail .notString

def optional {α : Type} (check : Check α) : Check (Option α)
  | .null => .valid none
  | value => some <$> check value

def booleanWord? (word : String) : Option Bool :=
  if ["0", "off", "f", "false", "n", "no"].contains word then some false
  else if ["1", "on", "t", "true", "y", "yes"].contains word then some true
  else none

/-- Integers that a machine word of 64 bits holds. -/
def isWord (i : Int) : Bool :=
  -9223372036854775808 ≤ i && i < 9223372036854775808

def booleanOfInt (i : Int) : Checked Bool :=
  if i = 0 then .valid false
  else if i = 1 then .valid true
  else if isWord i then fail .unreadableBoolean
  else fail .notBoolean

/-- The integer that a number without fractional part stands for, if it lies strictly between the
bounds of a machine word. -/
def wordOf? (x : Binary64) : Option Int :=
  x.toInt?.filter fun i => isWord i && i != -9223372036854775808

/-- Words are compared without regard to the case of ASCII letters. -/
def boolean : Check Bool
  | .bool b => .valid b
  | .int i => booleanOfInt i
  | .float x =>
    match wordOf? x with
    | some i => booleanOfInt i
    | none => fail .notBoolean
  | .str s =>
    match booleanWord? (s.map Char.toLower) with
    | some b => .valid b
    | none => fail .unreadableBoolean
  | _ => fail .notBoolean

def integer : Check Int
  | .int i => .valid i
  | .bool b => .valid (if b then 1 else 0)
  | .str s =>
    match readInteger s with
    | .whole i => .valid i
    | .tooLong => fail .hugeInteger
    | .unreadable => fail .unreadableInteger
  | .float x =>
    match wordOf? x, x with
    | some i, _ => .valid i
    | none, .finite .. => fail (if x.toInt?.isSome then .hugeInteger else .fractionalInteger)
    | none, _ => fail .notFinite
  | _ => fail .notInteger

def natural : Check Int := fun value =>
  match integer value with
  | .valid i => if i < 0 then fail .negativeInteger else .valid i
  | .invalid ps => .invalid ps

/-- One of the named alternatives. -/
def choice {α : Type} (name : α → String) (all : List α) : Check α
  | .str s =>
    match all.find? fun a => name a == s with
    | some a => .valid a
    | none => fail (.notAmong (all.map name))
  | _ => fail (.notAmong (all.map name))

def dictionary : Check Entries
  | .obj entries => .valid entries
  | _ => fail .notDictionary

/-- A record whose name stands in the message if the value is no dictionary. -/
def record {α : Type} (name : String) (check : Entries → Checked α) : Check α
  | .obj entries => check entries
  | _ => fail (.notRecord name)

def items {α : Type} (check : Check α) : Nat → List Json → Checked (List α)
  | _, [] => .valid []
  | i, item :: rest =>
    ((· :: ·) <$> (check item).under (toString i)) <*> items check (i + 1) rest

def list {α : Type} (check : Check α) : Check (List α)
  | .arr values => items check 0 values
  | _ => fail .notList

def required {α : Type} (entries : Entries) (key : String) (check : Check α) : Checked α :=
  match entries.get? key with
  | some value => (check value).under key
  | none => (fail .missing).under key

def withDefault {α : Type} (entries : Entries) (key : String) (default : α) (check : Check α) :
    Checked α :=
  match entries.get? key with
  | some value => (check value).under key
  | none => .valid default

/-- The first of two spellings of a key that is there. -/
def withAlias {α : Type} (entries : Entries) (key other : String) (default : α)
    (check : Check α) : Checked α :=
  withDefault entries (if entries.has key then key else other) default check

/-- Every key that is not among `known` is a problem. -/
def onlyKeys (entries : Entries) (known : List String) : Checked Unit :=
  match entries.keys.filter fun key => !known.contains key with
  | [] => .valid ()
  | extra => .invalid (extra.map fun key => ⟨[key], .unknownKey⟩)

end DartScaffold.Schema
