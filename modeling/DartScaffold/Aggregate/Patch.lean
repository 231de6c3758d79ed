import DartScaffold.Aggregate.Edit
import DartScaffold.Aggregate.Fragment
import DartScaffold.Disk.TextFile

/-!
Merging fragments into aggregate files, and pruning the files of APIs that are gone. What an API
contributed earlier is replaced where it stands; everything that is not part of a block stays.
-/

namespace DartScaffold.Aggregate

open Disk (Location WriteMode)

namespace Document

/-- Puts one block in, at the end if its section has no anchor, and says if it had one. That is the only
reason why it cannot be put in: all blocks of a document that was read have their begin markers, and a
fragment puts no block in twice. -/
def putBlock (d : Document) (key : BlockKey) (body : String) : Document × Bool :=
  match d.upsert key body with
  | .ok d => (d, true)
  | .error _ => (d.append key body, false)

/-- Puts the blocks of an API in, and gives the sections without an anchor. -/
def putBlocks (api : String) : Document → List (String × String) → Document × List String
  | d, [] => (d, [])
  | d, (part, body) :: rest =>
    let (d, anchored) := d.putBlock { part, api } body
    let (d, missing) := putBlocks api d rest
    (d, if anchored then missing else part :: missing)

def merge (d : Document) (f : Fragment) : Document × List String :=
  putBlocks f.api (d.addImports f.imports).1 f.blocks

/-- The APIs that have blocks but are not to be kept. -/
def stale (d : Document) (keep : List String) : List String :=
  d.apis.filter fun api => !keep.contains api

def prune (d : Document) (keep : List String) : Document :=
  (d.stale keep).foldl (fun d api => (d.removeApi api).1) d

end Document

/-- The text of an aggregate file with a fragment merged in, and the sections without an anchor. A
file that is not there begins as the fragment's skeleton. -/
def mergeText (existing : Option String) (f : Fragment) : String × List String :=
  let (d, missing) := (Document.parse (existing.getD f.skeleton)).merge f
  (d.render, missing)

/-- The text without the APIs that are not to be kept, if there are any. -/
def pruneText? (keep : List String) (text : String) : Option String :=
  let d := Document.parse text
  if (d.stale keep).isEmpty then none else some (d.prune keep).render

def noAnchorWarning (place : Location) (api part : String) : String :=
  anchorMessage place.toString part ++ s!"; appended block for '{api}' at end of file."

/-- Merges a fragment into the file at `place`. The warnings stand even if the file cannot be
written. -/
def patch (disk : Disk) (mode : WriteMode) (place : Location) (f : Twin Fragment) :
    List String × Except Failure Saved × Disk :=
  match disk.textIfFile place with
  | .error failure => ([], .error failure, disk)
  | .ok existing =>
    let merged := mergeText existing <$> f
    (merged.first.2.map (noAnchorWarning place f.first.api),
      disk.saveTwin mode place (Prod.fst <$> merged))

/-- Prunes the file at `place`. Nothing is written where there is no file or nothing to prune. -/
def prune (disk : Disk) (mode : WriteMode) (place : Location) (keep : List String) :
    Except Failure (Option Saved) × Disk :=
  match disk.textIfFile place with
  | .error failure => (.error failure, disk)
  | .ok existing =>
    match existing.bind (pruneText? keep) with
    | none => (.ok none, disk)
    | some text =>
      let (saved, disk) := disk.save mode place text
      (saved.map some, disk)

end DartScaffold.Aggregate
