import DartScaffold.ClassName.Reserved
import DartScaffold.ClassName.Scope
import DartScaffold.ClassName.Stem

/-!
The class names of one API. Every path receives one stem when it is first asked for; a stem is
taken only if the names it renders for all artifacts are free. The candidates for a nested object
are, in this order: its field name, the same after the enclosing names (nearest first), after the
API's name and all of them, with the artifact's suffix, after each Greek letter, and with a number.
-/

namespace DartScaffold.ClassName

structure Registry where
  api : String
  reserved : List String := ClassName.reserved
  stems : List (Path × Stem) := []

namespace Registry

def apiStem (r : Registry) : String :=
  Dart.classStem r.api

def stem? (r : Registry) (path : Path) : Option Stem :=
  r.stems.lookup path

def render (r : Registry) (stem : Stem) (kind : Artifact) : String :=
  stem.render r.apiStem kind

/-- The names that the allocated paths have for one artifact. -/
def taken (r : Registry) (kind : Artifact) : List String :=
  r.stems.map fun (_, stem) => r.render stem kind

def isFree (r : Registry) (stem : Stem) : Bool :=
  Artifact.all.all fun kind =>
    let name := r.render stem kind
    !r.reserved.contains name && !(r.taken kind).contains name

/-- What the enclosing names put before a field name, the nearest alone first. -/
def chain : List String → String → List String
  | [], _ => []
  | name :: outer, inner => (name ++ inner) :: chain outer (name ++ inner)

/-- The enclosing names of a path, innermost first. -/
def enclosing (path : Path) : List String :=
  (path.dropLast.map Dart.classStem).reverse

/-- The candidates before the numbered ones. -/
def candidates (r : Registry) (path : Path) (base : String) : List Stem :=
  let chains := chain (enclosing path) ""
  let whole := chains.getLast?.getD ""
  [.bare base] ++ chains.map (fun c => .bare (c ++ base)) ++ [.bare (r.apiStem ++ whole ++ base)] ++
    [.suffixed base] ++ greekLetters.map fun letter => .bare (letter ++ base)

/-- A name can be reserved or taken for one number only, so this many numbers suffice. -/
def numberBound (r : Registry) : Nat :=
  Artifact.all.length * (r.reserved.length + r.stems.length)

def numberedStem (r : Registry) (base : String) : Stem :=
  .bare (Text.numbered base
    (Text.firstNumber (fun n => r.isFree (.bare (Text.numbered base n))) r.numberBound 2))

/-- The stem of a nested object: the first free candidate. -/
def nestedStem (r : Registry) (path : Path) (name : String) : Stem :=
  let base := Dart.classStem name
  ((r.candidates path base).find? r.isFree).getD (r.numberedStem base)

/-- Gives `path` a stem unless it has one. A root owns its name and is not checked. -/
def ensure (r : Registry) (path : Path) (name : String) (isRoot : Bool) : Registry :=
  match r.stem? path with
  | some _ => r
  | none =>
    let stem := if isRoot then .root (Dart.classStem name) else r.nestedStem path name
    { r with stems := r.stems ++ [(path, stem)] }

/-- A nested object takes its name from its field, the whole sample from the API. -/
def ensurePath (r : Registry) (path : Path) : Registry :=
  r.ensure path (path.getLast?.getD r.api) path.isEmpty

/-- Allocates the objects of a shape, each before those inside it. -/
def ensureNodes (r : Registry) (nodes : List (Path × Fields)) : Registry :=
  nodes.foldl (fun r node => r.ensurePath node.1) r

/-- A name as other files see it; a mapper name is claimed on the page. -/
def publicName (r : Registry) (scope : Scope) (path : Path) (stem : Stem) (kind : Artifact) :
    String × Scope :=
  match kind with
  | .mapper => scope.claim (r.api, path) (r.render stem .mapper)
  | _ => (r.render stem kind, scope)

def lookup (r : Registry) (scope : Scope) (path : Path) (kind : Artifact) :
    Option String × Scope :=
  match r.stem? path with
  | none => (none, scope)
  | some stem =>
    let (name, scope) := r.publicName scope path stem kind
    (some name, scope)

/-- The name for `path`, which is allocated if need be. -/
def allocate (r : Registry) (scope : Scope) (path : Path) (name : String) (kind : Artifact)
    (isRoot : Bool) : String × Registry × Scope :=
  let r := r.ensure path name isRoot
  let (found, scope) := r.lookup scope path kind
  (found.getD "", r, scope)

/-- All allocated paths with their names, in the order of allocation. -/
def names (r : Registry) (scope : Scope) (kind : Artifact) : List (Path × String) × Scope :=
  r.stems.foldl
    (fun (found, scope) (path, stem) =>
      let (name, scope) := r.publicName scope path stem kind
      (found ++ [(path, name)], scope))
    ([], scope)

/-- The name of a model class; empty for a path that is not allocated. -/
def className (r : Registry) (kind : Artifact) (path : Path) : String :=
  match r.stem? path with
  | some stem => r.render stem kind
  | none => ""

/-- The names of the extensions on the response and on the entity class. -/
def extensionNames (r : Registry) (scope : Scope) (path : Path) :
    Option (String × String) × Scope :=
  let (found, scope) := r.lookup scope path .mapper
  (found.map fun name => (name ++ "ResponseMapper", name ++ "EntityMapper"), scope)

end Registry

end DartScaffold.ClassName
