import DartScaffold.Proofs.Disk.Frame

/-!
Walks over two disks. What a location reads as depends on the entries that its walk comes by. A directory
that only one of the disks has makes no difference to a reader of files as long as the walk goes down from
there: with nothing below it, it is as good as none.
-/

namespace DartScaffold.Disk

/-- The working directory is there, and so is what anything stands in. -/
structure Standing (d : Disk) : Prop where
  home : d.entry? d.home ≠ none
  above : ∀ key name, d.entry? (key ++ [name]) ≠ none → d.entry? key ≠ none

/-- Where a name leads. -/
def onward (here : Key) (name : String) : Key :=
  if name = ".." then here.dropLast else here ++ [name]

/-- The keys that a walk comes by, each with the names that are left there. -/
def route (here : Key) : List String → List (Key × List String)
  | [] => [(here, [])]
  | name :: rest => (here, name :: rest) :: route (onward here name) rest

/-- The walk of a location. -/
def walk (d : Disk) (l : Location) : List (Key × List String) :=
  route (d.start l) l.parts

/-- Names of directories or files, and none of them too long. -/
def LeadDown (names : List String) : Prop :=
  ∀ name ∈ names, name ≠ ".." ∧ name.utf8ByteSize ≤ nameLimit

instance (names : List String) : Decidable (LeadDown names) :=
  inferInstanceAs (Decidable (∀ name ∈ names, name ≠ ".." ∧ name.utf8ByteSize ≤ nameLimit))

section Standing

variable {d e : Disk} {here key : Key} {name : String} {names : List String}

@[simp] theorem entry?_nil (d : Disk) : d.entry? [] = some .directory := rfl

theorem Standing.dropLast (h : d.Standing) (hkey : d.entry? key ≠ none) :
    d.entry? key.dropLast ≠ none := by
  rcases List.eq_nil_or_concat key with rfl | ⟨front, last, rfl⟩
  · exact hkey
  · rw [List.concat_eq_append] at hkey ⊢
    rw [List.dropLast_concat]
    exact h.above front last hkey

theorem Standing.start (h : d.Standing) (l : Location) : d.entry? (d.start l) ≠ none := by
  rw [Disk.start]
  split
  · simp
  · exact h.home

/-- A disk stands if each of its entries is in one. -/
theorem standing_of_entries (hhome : d.entry? d.home ≠ none)
    (h : ∀ entry ∈ d.entries, d.entry? entry.1.dropLast ≠ none) : d.Standing := by
  refine ⟨hhome, fun key name hkey => ?_⟩
  have hlookup : d.entry? (key ++ [name]) = d.entries.lookup (key ++ [name]) := if_neg (by simp)
  obtain ⟨entry, hentry⟩ := Option.ne_none_iff_exists'.mp hkey
  rw [hlookup] at hentry
  obtain ⟨front, back, hsplit, -⟩ := List.lookup_eq_some_iff.mp hentry
  have hmem : (key ++ [name], entry) ∈ d.entries := hsplit ▸ by simp
  simpa using h _ hmem

theorem Standing.put (h : d.Standing) (hkey : d.entry? key.dropLast ≠ none) (entry : Entry) :
    (d.put key entry).Standing := by
  have hkept : ∀ other, d.entry? other ≠ none → entry? (d.put key entry) other ≠ none := by
    intro other hother
    rw [entry?_put]
    split
    · simp
    · split
      · simp
      · exact hother
  refine ⟨hkept _ h.home, fun other name hother => hkept _ ?_⟩
  by_cases heq : other ++ [name] = key
  · rw [← heq, List.dropLast_concat] at hkey
    exact hkey
  · rw [entry?_put_of_ne heq] at hother
    exact h.above other name hother

end Standing

section Route

variable {d e : Disk} {here : Key} {name : String} {names : List String} {step : Key × List String}

theorem mem_route_self (here : Key) (names : List String) : (here, names) ∈ route here names := by
  cases names <;> exact List.mem_cons_self

theorem mem_route_cons (h : step ∈ route (onward here name) names) :
    step ∈ route here (name :: names) :=
  List.mem_cons_of_mem _ h

theorem follow_cons_of_directory (h : d.entry? here = some .directory)
    (hname : name.utf8ByteSize ≤ nameLimit) :
    d.follow here (name :: names) = d.follow (onward here name) names := by
  rw [follow, h, onward]
  dsimp only
  split
  · rfl
  · rw [if_neg (Nat.not_lt.mpr hname)]

/-- A walk that comes by the same entries ends alike. -/
theorem follow_congr
    (h : ∀ step ∈ route here names, step.2 ≠ [] → e.entry? step.1 = d.entry? step.1) :
    e.follow here names = d.follow here names := by
  induction names generalizing here with
  | nil => rfl
  | cons name names ih =>
      have hhere : e.entry? here = d.entry? here :=
        h _ (mem_route_self here (name :: names)) (List.cons_ne_nil _ _)
      have hrest : e.follow (onward here name) names = d.follow (onward here name) names :=
        ih fun step hstep => h step (mem_route_cons hstep)
      rw [onward] at hrest
      rw [follow, follow, hhere]
      split
      · rfl
      · rfl
      · split
        · rename_i hname
          rwa [if_pos hname] at hrest
        · rename_i hname
          split
          · rfl
          · rwa [if_neg hname] at hrest

/-- What is found at the end of a walk. -/
def find (d : Disk) (here : Key) (names : List String) : Except Cause Entry := do
  match d.entry? (← d.follow here names) with
  | some entry => .ok entry
  | none => .error .notFound

theorem find_of_follow {key : Key} (h : d.follow here names = .ok key) :
    d.find here names = match d.entry? key with
      | some entry => .ok entry
      | none => .error .notFound := by
  simp only [find, h, bind, Except.bind]

theorem find_of_error {cause : Cause} (h : d.follow here names = .error cause) :
    d.find here names = .error cause := by
  simp only [find, h, bind, Except.bind]

theorem find_congr (h : ∀ step ∈ route here names, e.entry? step.1 = d.entry? step.1) :
    e.find here names = d.find here names := by
  have hlast : ∀ {here : Key} {names : List String},
      (names.foldl onward here, []) ∈ route here names := by
    intro here names
    induction names generalizing here with
    | nil => exact mem_route_self here []
    | cons name names ih => exact mem_route_cons ih
  have hfollow := follow_congr fun step hstep _ => h step hstep
  cases hkey : d.follow here names with
  | error cause => rw [find_of_error hkey, find_of_error (hfollow.trans hkey)]
  | ok key =>
      have hfound : key = names.foldl onward here := follow_eq_ok hkey
      have hentry := h _ hlast
      rw [← hfound] at hentry
      rw [find_of_follow hkey, find_of_follow (hfollow.trans hkey), hentry]

theorem entryAt_eq_find (d : Disk) (l : Location) :
    d.entryAt l = if isOverlong l then .error .nameTooLong else d.find (d.start l) l.parts := by
  rw [entryAt, locate]
  split
  · rfl
  · rfl

theorem entryAt_congr (hhome : e.home = d.home) {l : Location}
    (h : ∀ step ∈ d.walk l, e.entry? step.1 = d.entry? step.1) : e.entryAt l = d.entryAt l := by
  rw [entryAt_eq_find, entryAt_eq_find, start_of_home hhome, find_congr h]

end Route

/-! ### Readers of files -/

/-- What a reader of files learns of what it finds. -/
def bytesOf : Except Cause Entry → Except Cause (Option ByteArray)
  | .ok (.file bytes) => .ok (some bytes)
  | .error .nameTooLong => .error .nameTooLong
  | _ => .ok none

/-- A walk comes by the same entry on both disks, or by a directory that only `e` has and from which it
goes down. -/
def MeetsAlike (d e : Disk) (step : Key × List String) : Prop :=
  e.entry? step.1 = d.entry? step.1 ∨
    d.entry? step.1 = none ∧ e.entry? step.1 = some .directory ∧ LeadDown step.2

section Read

variable {d e : Disk} {l : Location} {here : Key} {names : List String}

theorem isFile_eq (d : Disk) (l : Location) : d.isFile l =
    match bytesOf (d.entryAt l) with
    | .ok found => .ok found.isSome
    | .error cause => .error ⟨cause, l⟩ := by
  rw [Disk.isFile, holds]
  rcases d.entryAt l with (_ | _ | _ | _ | _) | (_ | _) <;> rfl

theorem textIfFile_eq (d : Disk) (l : Location) : d.textIfFile l =
    match bytesOf (d.entryAt l) with
    | .ok found => textOf (found.map .file)
    | .error cause => .error (.disk ⟨cause, l⟩) := by
  have hread : ∀ bytes, d.entryAt l = .ok (.file bytes) →
      (do return some (← d.readText l) : Except Failure (Option String)) =
        textOf (some (.file bytes)) := by
    intro bytes h
    rw [readText, read, h, textOf]
    cases hbytes : String.fromUTF8? bytes <;>
      simp [bind, Except.bind, pure, Except.pure, hbytes, throw, throwThe, MonadExceptOf.throw]
  rw [textIfFile, isFile_eq]
  rcases h : d.entryAt l with (_ | _ | _ | _ | _) | (_ | bytes)
  case ok.file => exact hread bytes h
  all_goals rfl

theorem sameText_of_bytesOf (h : bytesOf (e.entryAt l) = bytesOf (d.entryAt l)) : SameText d e l where
  isFile_eq := by rw [isFile_eq, isFile_eq, h]
  textIfFile_eq := by rw [textIfFile_eq, textIfFile_eq, h]

/-- Nothing is found below where `d` has nothing. -/
theorem bytesOf_find_of_none (hd : d.Standing) (h : ∀ step ∈ route here names, MeetsAlike d e step)
    (hnames : LeadDown names) (hhere : d.entry? here = none) :
    bytesOf (e.find here names) = .ok none := by
  have hmet : e.entry? here = none ∨ e.entry? here = some .directory := by
    rcases h _ (mem_route_self here names) with hsame | ⟨-, hmade, -⟩
    · exact .inl (hsame.trans hhere)
    · exact .inr hmade
  induction names generalizing here with
  | nil => rcases hmet with hmet | hmet <;> rw [find_of_follow rfl, hmet] <;> rfl
  | cons name names ih =>
      obtain ⟨⟨hup, hshort⟩, hrest⟩ := List.forall_mem_cons.mp hnames
      rcases hmet with hmet | hmet
      · rw [find_of_error (by rw [follow, hmet])]
        rfl
      · have hnext : onward here name = here ++ [name] := if_neg hup
        have hbelow : d.entry? (onward here name) = none := by
          rw [hnext]
          exact Classical.not_not.mp fun hname => hd.above here name hname hhere
        have hfind : e.find here (name :: names) = e.find (onward here name) names := by
          rw [find, follow_cons_of_directory hmet hshort]
          rfl
        rw [hfind]
        have hmeets : ∀ step ∈ route (onward here name) names, MeetsAlike d e step :=
          fun step hstep => h step (mem_route_cons hstep)
        refine ih hmeets hrest hbelow ?_
        rcases hmeets _ (mem_route_self _ names) with hsame | ⟨-, hmade, -⟩
        · exact .inl (hsame.trans hbelow)
        · exact .inr hmade

theorem bytesOf_find (hd : d.Standing) (h : ∀ step ∈ route here names, MeetsAlike d e step) :
    bytesOf (e.find here names) = bytesOf (d.find here names) := by
  induction names generalizing here with
  | nil =>
      rw [find_of_follow rfl, find_of_follow rfl]
      rcases h _ (mem_route_self here []) with hsame | ⟨hnone, hmade, -⟩
      · rw [hsame]
      · rw [hnone, hmade]
        rfl
  | cons name names ih =>
      rcases h _ (mem_route_self here (name :: names)) with hsame | ⟨hnone, -, hdown⟩
      · have hrest : bytesOf (e.find (onward here name) names) =
            bytesOf (d.find (onward here name) names) :=
          ih fun step hstep => h step (mem_route_cons hstep)
        dsimp only at hsame
        rw [onward] at hrest
        simp only [find, follow, hsame] at hrest ⊢
        split
        · rfl
        · rfl
        · split
          · rename_i hname
            rwa [if_pos hname] at hrest
          · rename_i hname
            split
            · rfl
            · rwa [if_neg hname] at hrest
      · rw [bytesOf_find_of_none hd h hdown hnone, find_of_error (by rw [follow, hnone])]
        rfl

/-- A location reads alike where its walk meets alike. -/
theorem sameText_of_meets (hd : d.Standing) (hhome : e.home = d.home)
    (h : ∀ step ∈ d.walk l, MeetsAlike d e step) : SameText d e l := by
  refine sameText_of_bytesOf ?_
  rw [entryAt_eq_find, entryAt_eq_find, start_of_home hhome]
  split
  · rfl
  · exact bytesOf_find hd h

end Read

end DartScaffold.Disk
