import DartScaffold.Aggregate.Document
import DartScaffold.Text.Case

/-!
Edits of an aggregate document. A new block goes before the anchor of its section with a blank
line after it; a block that is there already is replaced where it stands. New imports follow the
last import. Removing an API takes its blocks, the blank line after each, and the imports of its
model files.
-/

namespace DartScaffold.Aggregate

/-- The block of `key` with `body`, without the line feeds at its end. -/
def makeBlock (key : BlockKey) (body indent : String) : Node :=
  let lines := Text.splitOnChar '\n' (Text.dropWhileEnd (· == '\n') body.toList)
  .block key (indent ++ beginMarker key.part key.api) (lines.map String.ofList)
    (indent ++ endMarker key.part key.api)

/-- The normal forms among `imports` that are new, each once. -/
def freshImports : List String → List String → List String
  | _, [] => []
  | known, line :: rest =>
    let key := normalizeImport line
    if key = "" || known.contains key then freshImports known rest
    else key :: freshImports (key :: known) rest

namespace Document

/-- Puts `added` after the last directive, if there is one. -/
def insertAfterImports? (added : List Node) : Document → Option Document
  | [] => none
  | node :: rest =>
    match insertAfterImports? added rest with
    | some rest => some (node :: rest)
    | none =>
      match node with
      | .directive _ => some (node :: added ++ rest)
      | _ => none

/-- The document with the new imports, and their number. -/
def addImports (d : Document) (imports : List String) : Document × Nat :=
  let fresh := (freshImports d.importKeys imports).map Node.directive
  if fresh.isEmpty then (d, 0)
  else ((insertAfterImports? fresh d).getD (fresh ++ .text "" :: d), fresh.length)

/-- Why a block cannot be put in. -/
inductive UpsertFault where
  /-- The block is new and its section has no anchor. -/
  | noAnchor
  /-- The block is there, but its first line does not read as a begin marker of any block. -/
  | brokenMarker
  deriving DecidableEq, Repr

/-- Replaces the first block of `key` by one whose indent is that of its begin marker. -/
def replaceBlock? (key : BlockKey) (body : String) :
    Document → Option (Except UpsertFault Document)
  | [] => none
  | node :: rest =>
    match node with
    | .block k first _ _ =>
      if k = key then
        match begin? first with
        | some (indent, _) => some (.ok (makeBlock key body indent :: rest))
        | none => some (.error .brokenMarker)
      else (replaceBlock? key body rest).map (·.map (node :: ·))
    | _ => (replaceBlock? key body rest).map (·.map (node :: ·))

/-- Inserts a block before the first anchor of its section, indented as the anchor is. -/
def insertBlock? (key : BlockKey) (body : String) : Document → Option Document
  | [] => none
  | node :: rest =>
    match node with
    | .anchor _ part indent =>
      if part = key.part then some (makeBlock key body indent :: .text "" :: node :: rest)
      else (insertBlock? key body rest).map (node :: ·)
    | _ => (insertBlock? key body rest).map (node :: ·)

/-- Replaces the block of `key`, or inserts it if it is new. -/
def upsert (d : Document) (key : BlockKey) (body : String) : Except UpsertFault Document :=
  match d.replaceBlock? key body with
  | some result => result
  | none =>
    match d.insertBlock? key body with
    | some d => .ok d
    | none => .error .noAnchor

/-- Adds a block at the end, before the empty line that ends the file. -/
def append (d : Document) (key : BlockKey) (body : String) : Document :=
  let added := [Node.text "", makeBlock key body ""]
  match d.getLast? with
  | some (.text "") => d.dropLast ++ added ++ [.text ""]
  | _ => d ++ added

/-- Whether `pattern` occurs in the text. -/
def occursIn (pattern : List Char) : List Char → Bool
  | [] => pattern.isEmpty
  | c :: s => pattern.isPrefixOf (c :: s) || occursIn pattern s

/-- The ends of the locations of an API's model files. -/
def modelFileEnds (api : String) : List String :=
  ["/", "'"].flatMap fun start =>
    [api, Text.snakeCase api].flatMap fun stem =>
      ["body", "response", "entity", "extra"].map fun kind =>
        start ++ stem ++ "_" ++ kind ++ ".dart'"

def importsModelOf (api line : String) : Bool :=
  (modelFileEnds api).any fun pattern => occursIn pattern.toList line.toList

/-- Walks over the nodes; `afterBlock` says that the one before was removed with its block. -/
def dropApi (api : String) : Bool → Document → Document
  | _, [] => []
  | afterBlock, node :: rest =>
    if node.isBlockOf api then dropApi api true rest
    else if afterBlock && node == .text "" then dropApi api false rest
    else
      match node with
      | .directive line =>
        if importsModelOf api line then dropApi api false rest
        else node :: dropApi api false rest
      | _ => node :: dropApi api false rest

/-- The document without `api`, and the number of blocks removed. -/
def removeApi (d : Document) (api : String) : Document × Nat :=
  (dropApi api false d, d.countP (Node.isBlockOf api))

end Document

end DartScaffold.Aggregate
