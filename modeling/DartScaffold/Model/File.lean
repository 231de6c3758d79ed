import DartScaffold.ClassName.Registry
import DartScaffold.Model.ClassText

/-!
A model file: one class for each object of a shape, the root first. A shape without objects has no
root class. The names are allocated before any class is written, so every class that the file
refers to is defined in it.
-/

namespace DartScaffold.Model

open ClassName (Registry)

structure File where
  kind : Kind
  content : String
  classNames : List String
  relativePath : String
  deriving Repr

def File.rootClass? (f : File) : Option String := f.classNames.head?

def coreImport : String := "import 'package:core/core.dart';"

def importLines (kind : Kind) (multipart : Bool) : List String :=
  (if kind.readsJson then ["import 'dart:convert';", ""] else []) ++
    (if multipart then ["import 'dart:io';", ""] else []) ++ [coreImport]

/-- The options belong to the root class; the classes inside it have none. -/
def BodyOptions.at (options : BodyOptions) (path : Path) : BodyOptions :=
  if path.isEmpty then options else {}

def emit (policy : Policy) (r : Registry) (options : BodyOptions) (relativePath : String)
    (shape : Shape) : File × Registry :=
  let nodes := shape.nodes
  let r := r.ensureNodes nodes
  let nameOf := r.className policy.kind.artifact
  let classes := nodes.map fun (path, node) =>
    classText policy nameOf (options.at path) path node
  let names := nodes.map fun (path, _) => nameOf path
  let content := "\n".intercalate (importLines policy.kind options.multipart) ++ "\n\n" ++
    "\n\n".intercalate classes ++ "\n"
  ({ kind := policy.kind, content, classNames := names, relativePath }, r)

/-- One class on its own. Paths that have no name yet, its own and those of the objects in its
fields, get one in the order in which the class mentions them. -/
def emitClass (policy : Policy) (r : Registry) (options : BodyOptions) (path : Path)
    (node : Fields) :
    String × Registry :=
  let held := node.filterMap fun (key, shape) =>
    match shape.unwrapped with
    | .object _ => some (path ++ [key])
    | _ => none
  let r := (path :: held).foldl Registry.ensurePath r
  (classText policy (r.className policy.kind.artifact) options path node, r)

end DartScaffold.Model
