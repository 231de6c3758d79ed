import DartScaffold.Disk.Error

/-!
A disk as a value: directories, and files with their bytes, under the names that lead to them from
the top. Relative locations start at the working directory, `home`.

An operation that changes the disk returns the disk also where it fails, since directories made on
the way stay.
-/

namespace DartScaffold

namespace Disk

inductive Entry where
  | directory
  | file (bytes : ByteArray)

/-- The names that lead from the top directory to an entry. -/
abbrev Key := List String

end Disk

structure Disk where
  home : Disk.Key := []
  entries : List (Disk.Key × Disk.Entry) := []

namespace Disk

/-- The top directory always exists. -/
def entry? (d : Disk) (key : Key) : Option Entry :=
  if key = [] then some .directory else d.entries.lookup key

def putEntry (key : Key) (entry : Entry) : List (Key × Entry) → List (Key × Entry)
  | [] => [(key, entry)]
  | (k, e) :: rest => if k = key then (k, entry) :: rest else (k, e) :: putEntry key entry rest

def put (d : Disk) (key : Key) (entry : Entry) : Disk :=
  { d with entries := putEntry key entry d.entries }

/-- A disk with nothing but the directories that lead to `home`. -/
def emptyAt (home : Key) : Disk :=
  { home
    entries := (List.range home.length).map fun n => (home.take (n + 1), .directory) }

/-- A name of a file has at most this many bytes. -/
def nameLimit : Nat := 255

/-- The text of a location has at most this many bytes. -/
def pathLimit : Nat := 4095

/-- Whether the text of a location is longer than any that the disk looks at. -/
def isOverlong (l : Location) : Bool :=
  decide (pathLimit < l.toString.utf8ByteSize)

/-- Where the names lead from the directory `here`. The last one need not exist. -/
def follow (d : Disk) (here : Key) : List String → Except Cause Key
  | [] => .ok here
  | name :: rest =>
    match d.entry? here with
    | none => .error .notFound
    | some (.file _) => .error .notDirectory
    | some .directory =>
      if name = ".." then d.follow here.dropLast rest
      else if nameLimit < name.utf8ByteSize then .error .nameTooLong
      else d.follow (here ++ [name]) rest

def start (d : Disk) (l : Location) : Key :=
  if l.isAbsolute then [] else d.home

def locate (d : Disk) (l : Location) : Except Cause Key :=
  if isOverlong l then .error .nameTooLong
  else d.follow (d.start l) l.parts

def entryAt (d : Disk) (l : Location) : Except Cause Entry := do
  match d.entry? (← d.locate l) with
  | some entry => .ok entry
  | none => .error .notFound

/-- Whether `test` holds of the entry at a location. A name or a location too long for any entry is
an error, any other reason for there being none is not. -/
def holds (d : Disk) (l : Location) (test : Entry → Bool) : Except Error Bool :=
  match d.entryAt l with
  | .ok entry => .ok (test entry)
  | .error .nameTooLong => .error ⟨.nameTooLong, l⟩
  | .error _ => .ok false

def isFile (d : Disk) (l : Location) : Except Error Bool :=
  d.holds l fun entry => entry matches .file _

def isDirectory (d : Disk) (l : Location) : Except Error Bool :=
  d.holds l fun entry => entry matches .directory

def occupied (d : Disk) (l : Location) : Except Error Bool :=
  d.holds l fun _ => true

def read (d : Disk) (l : Location) : Except Error ByteArray :=
  match d.entryAt l with
  | .ok (.file bytes) => .ok bytes
  | .ok .directory => .error ⟨.isDirectory, l⟩
  | .error cause => .error ⟨cause, l⟩

/-- Creates the directories that are missing on the way that the names lead from `here`. -/
def makeWay (d : Disk) (here : Key) : List String → Except Cause Unit × Disk
  | [] => (.ok (), d)
  | name :: rest =>
    if name = ".." then d.makeWay here.dropLast rest
    else if nameLimit < name.utf8ByteSize then (.error .nameTooLong, d)
    else
      let key := here ++ [name]
      match d.entry? key with
      | some .directory => d.makeWay key rest
      | some (.file _) => (.error (if rest.isEmpty then .occupied else .notDirectory), d)
      | none => (d.put key .directory).makeWay key rest

/-- Creates a directory, after those that lead to it. -/
def makeDirectory (d : Disk) (l : Location) : Except Error Unit × Disk :=
  if isOverlong l then (.error ⟨.nameTooLong, l⟩, d)
  else
    let (result, d) := d.makeWay (d.start l) l.parts
    (result.mapError (⟨·, l⟩), d)

/-- How a file comes to have its new content. -/
inductive WriteMode where
  /-- A temporary file is written beside it and then moved onto it. -/
  | replace
  /-- The file itself is written. -/
  | inPlace
  deriving DecidableEq, Repr

def temporaryName (name : String) : String :=
  "." ++ name ++ ".xxxxxxxx.tmp"

/-- Where the bytes go that are written to `l`, whose directory exists. What is moved onto a
directory lands inside it, under its temporary name. -/
def target (d : Disk) (mode : WriteMode) (l : Location) : Except Cause Key :=
  match mode with
  | .inPlace => do
    let key ← d.locate l
    match d.entry? key with
    | some .directory => .error .isDirectory
    | _ => .ok key
  | .replace => do
    let parent ← d.locate l.parent
    let temporary := temporaryName l.name
    if nameLimit < temporary.utf8ByteSize ∨ isOverlong (l.parent.child temporary) then
      throw .nameTooLong
    let key ← d.locate l
    match d.entry? key with
    | some .directory => if key = parent then .error .occupied else .ok (key ++ [temporary])
    | _ => .ok key

/-- Writes a file, after the directories that lead to it. -/
def write (d : Disk) (mode : WriteMode) (l : Location) (bytes : ByteArray) :
    Except Error Unit × Disk :=
  let (made, d) := d.makeDirectory l.parent
  match made with
  | .error e => (.error e, d)
  | .ok () =>
    match d.target mode l with
    | .error cause => (.error ⟨cause, l⟩, d)
    | .ok key => (.ok (), d.put key (.file bytes))

/-- Removes a file. -/
def remove (d : Disk) (l : Location) : Except Error Unit × Disk :=
  match d.locate l with
  | .error cause => (.error ⟨cause, l⟩, d)
  | .ok key =>
    match d.entry? key with
    | some (.file _) => (.ok (), { d with entries := d.entries.filter fun (k, _) => k != key })
    | some .directory => (.error ⟨.isDirectory, l⟩, d)
    | none => (.error ⟨.notFound, l⟩, d)

/-- The names of the entries of a directory. -/
def names (d : Disk) (l : Location) : List String :=
  match d.locate l with
  | .error _ => []
  | .ok key => d.entries.filterMap fun (k, _) =>
    match k.getLast? with
    | some name => if k.dropLast = key then some name else none
    | none => none

/-- The names from the top to `l`, where `..` takes back the name before it, whether or not that
exists. -/
def absoluteKey (d : Disk) (l : Location) : Key :=
  l.parts.foldl (fun key name => if name = ".." then key.dropLast else key ++ [name]) (d.start l)

def absolute (d : Disk) (l : Location) : Location :=
  { root := "/", parts := d.absoluteKey l }

end Disk

end DartScaffold
