import DartScaffold.CommandLine.Reply

/-!
The program. It reads the directories that a command line is about, answers the command line on
that copy, and writes back what changed.
-/

namespace DartScaffold

open Disk (Location Key)

def absolutePath (key : Key) : String :=
  "/" ++ "/".intercalate key

/-- The entry that the names lead to from the top directory. -/
def entryOf (key : Key) : IO.FS.DirEntry :=
  { root := "/", fileName := absolutePath key }

/-- Adds a file, or a directory with what is in it. Links to directories and hidden directories
are not entered. -/
partial def addEntry (disk : Disk) (key : Key) (entry : IO.FS.DirEntry) : IO Disk := do
  if ← entry.path.isDir then
    let mut disk := disk.put key .directory
    for inner in ← entry.path.readDir do
      let linked := (← inner.path.symlinkMetadata).type matches .symlink
      let isDirectory ← inner.path.isDir
      unless isDirectory && (linked || inner.fileName.startsWith ".") do
        disk ← addEntry disk (key ++ [inner.fileName]) inner
    return disk
  else if ← entry.path.pathExists then
    return disk.put key (.file (← IO.FS.readBinFile entry.path))
  else return disk

/-- The disk with everything below a location, and the directories that lead to it. -/
def addPlace (disk : Disk) (place : Location) : IO Disk := do
  let key := disk.absoluteKey place
  let mut disk := disk
  for n in [1:key.length] do
    if ← (entryOf (key.take n)).path.isDir then
      disk := disk.put (key.take n) .directory
  addEntry disk key (entryOf key)

/-- The places that a command line is about. -/
def placesOf (texts : List String) : List Location :=
  match CommandLine.Request.ofTexts texts with
  | .run a => (a.root :: a.projectFile.toList).filterMap fun
    | .text place => some (Location.ofString place)
    | .nothing => none
  | _ => []

/-- Creates the directories and writes the files that are not as they were. -/
def writeChanges (old new : Disk) : IO Unit := do
  for (key, entry) in new.entries do
    match entry, old.entry? key with
    | .directory, none => IO.FS.createDirAll (absolutePath key)
    | .directory, some _ => pure ()
    | .file bytes, some (.file before) =>
      unless bytes.data == before.data do IO.FS.writeBinFile (absolutePath key) bytes
    | .file bytes, _ => IO.FS.writeBinFile (absolutePath key) bytes

def logLine (e : Log.Entry) : String :=
  s!"{Run.Report.padded 8 e.severity.name} │ {e.source.name} │ {e.text}"

end DartScaffold

open DartScaffold in
def main (texts : List String) : IO UInt32 := do
  let home := Disk.Location.ofString (← IO.currentDir).toString
  let start ← (placesOf texts).foldlM addPlace (Disk.emptyAt home.parts)
  let began ← IO.monoMsNow
  let homes : Disk.Homes := { own := ← IO.getEnv "HOME" }
  let outcome := CommandLine.reply texts homes {} start
  writeChanges start outcome.disk
  for e in outcome.log do
    IO.eprintln (logLine e)
  for text in outcome.complaint.toList do
    IO.eprintln ("\n".intercalate (CommandLine.usageLines ++ [text]))
  match outcome.reply with
  | .ok reply =>
    IO.print (reply.shown.text ((← IO.monoMsNow) - began))
    return reply.exit.status.toUInt32
  | .error failure =>
    IO.eprintln failure.message
    return 1
