import DartScaffold.Disk.Location

/-!
Home directories. A relative location whose first name begins with a tilde stands for one below the
home of the user whose name follows, or of the one who runs the program if no name does.
-/

namespace DartScaffold.Disk

/-- The home directories that are known, as texts. -/
structure Homes where
  /-- That of the one who runs the program. -/
  own : Option String := none
  /-- Those of users, by their names. -/
  others : List (String × String) := []
  deriving DecidableEq, Repr

namespace Homes

/-- A text of nothing but slashes is the top directory. One with a tilde of its own leads nowhere. -/
def directoryOf (text : String) : Option Location :=
  if text.toList.all (· == '/') then some { root := "/" }
  else if text.toList.head? == some '~' then none
  else some (.ofString text)

/-- The home of a user. -/
def directory? (homes : Homes) (user : String) : Option Location :=
  (if user == "" then homes.own else homes.others.lookup user).bind directoryOf

/-- The location that one with a home is about, unless nobody knows the home. -/
def expand? (homes : Homes) (l : Location) : Option Location :=
  if l.isAbsolute then some l
  else match l.parts with
    | [] => some l
    | first :: rest =>
      match first.toList with
      | '~' :: user => (homes.directory? (String.ofList user)).map fun home =>
          { home with parts := home.parts ++ rest }
      | _ => some l

/-- The location that `text` names, seen from `place`. -/
def resolve? (homes : Homes) (place : Location) (text : String) : Option Location :=
  (homes.expand? (.ofString text)).map place.join

end Homes

end DartScaffold.Disk
