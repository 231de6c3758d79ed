import DartScaffold.Disk.Home

/-!
Home directories in texts from the configuration. Only a tilde at the very beginning stands for one.
-/

namespace DartScaffold.Disk.Homes

variable {homes : Homes} {place l : Location} {text : String}

/-- The user with whose home the location begins, if it begins with one. -/
def userOf (l : Location) : Option String :=
  if l.isAbsolute then none
  else match l.parts.head?.map String.toList with
    | some ('~' :: user) => some (String.ofList user)
    | _ => none

theorem expand?_eq (homes : Homes) (l : Location) :
    homes.expand? l = match userOf l with
      | none => some l
      | some user => (homes.directory? user).map fun home =>
          { home with parts := home.parts ++ l.parts.tail } := by
  obtain ⟨root, parts⟩ := l
  rw [expand?, userOf]
  split
  · rfl
  · cases parts with
    | nil => rfl
    | cons first rest =>
        dsimp only [List.head?_cons, Option.map_some, List.tail_cons]
        generalize first.toList = chars
        cases chars with
        | nil => rfl
        | cons c user =>
            by_cases hc : c = '~'
            · subst hc
              rfl
            · simp [hc]

/-- A text that begins with no home is seen from the place. -/
theorem resolve?_of_no_user (h : userOf (.ofString text) = none) :
    homes.resolve? place text = some (place.child text) := by
  rw [resolve?, expand?_eq, h]
  rfl

/-- A text names no place if, and only if, it begins with the home of somebody whose home is not known. -/
theorem resolve?_eq_none_iff : homes.resolve? place text = none ↔
    ∃ user, userOf (.ofString text) = some user ∧ homes.directory? user = none := by
  rw [resolve?, expand?_eq, Option.map_eq_none_iff]
  cases userOf (.ofString text) with
  | none => simp
  | some user => simp

example : let homes : Homes := { own := some "/home/me" }
    (["~/b.json", "a/~", "~eve/b.json"].map fun text => homes.resolve? { root := "/" } text) =
      [some { root := "/", parts := ["home", "me", "b.json"] }, some { root := "/", parts := ["a", "~"] },
        none] := by
  decide +kernel

end DartScaffold.Disk.Homes
