import CrossDoc.CommandLine

/-!
# The program

Reads the part of the disk that a command is about, runs the command on it, and writes back what
changed. Nothing is fetched: references into other projects are left as they are.
-/

namespace CrossDoc.Program

def emptyDisk (current : String) : Disk :=
  let disk := (({} : Disk).makeDirectories current).toOption.getD {}
  { disk with cwd := (disk.locate current).toOption.getD [] }

def readFile (disk : Disk) (path : String) : IO Disk := do
  let content ←
    try
      match String.fromUTF8? (← IO.FS.readBinFile path) with
      | some text => pure (FileContent.text text)
      | none => pure FileContent.binary
    catch _ => pure FileContent.binary
  return (disk.writeDeep path content).toOption.getD disk

def typeAt (path : String) : IO (Option IO.FS.FileType) := do
  try return some (← (← IO.FS.realPath path).metadata).type
  catch _ => return none

/-- The names of the visible files and of the visible directories in a directory, links left out. -/
def entriesOf (directory : String) : IO (List String × List String) := do
  let mut files := []
  let mut directories := []
  for entry in ← (← IO.FS.realPath directory).readDir do
    unless entry.fileName.startsWith "." do
      match (← entry.path.symlinkMetadata).type with
      | .file => files := entry.fileName :: files
      | .dir => directories := entry.fileName :: directories
      | _ => pure ()
  return (files, directories)

def readBelow (disk : Disk) (directory : String) : IO Disk := do
  let mut disk := disk
  let mut pending := [directory]
  repeat
    match pending with
    | [] => break
    | next :: rest =>
      disk := (disk.makeDirectories next).toOption.getD disk
      let (files, directories) ← entriesOf next
      for name in files do
        disk ← readFile disk (Disk.joinPath next name)
      pending := directories.map (Disk.joinPath next) ++ rest
  return disk

def readPath (disk : Disk) (path : String) : IO Disk := do
  match ← typeAt path with
  | some .dir => readBelow disk path
  | some .file => readFile disk path
  | _ => return disk

/-- Adds the settings of the project at `root`, which are hidden. -/
def readSettings (disk : Disk) (root : String) : IO Disk := do
  let mut disk := disk
  match ← typeAt (Settings.directory root) with
  | some .dir => disk := (disk.makeDirectories (Settings.directory root)).toOption.getD disk
  | some .file => disk ← readFile disk (Settings.directory root)
  | _ => pure ()
  match ← typeAt (Settings.file root) with
  | some .dir => disk := (disk.makeDirectories (Settings.file root)).toOption.getD disk
  | some .file => disk ← readFile disk (Settings.file root)
  | _ => pure ()
  return disk

/-- The part of the disk that a command is about. -/
def readDisk (command : Command) : IO Disk := do
  let disk := emptyDisk (← IO.currentDir).toString
  let root := command.root disk
  let disk ← readSettings (← readPath disk root) root
  match command with
  | .resolve _ (some out) => readPath disk out
  | _ => return disk

/-- Makes the directories and writes the files that one disk has and another has not. -/
def writeChanges (before after : Disk) : IO Unit := do
  for path in after.directories.keys do
    unless before.directories.contains path do IO.FS.createDirAll path
  for (path, content) in after.files.entries do
    unless before.files.get? path == some content do
      match content with
      | .text text => IO.FS.writeFile path text
      | .binary => pure ()

def run (command : Command) : IO UInt32 := do
  let disk ← readDisk command
  let started ← IO.monoMsNow
  let outcome := command.run (fun _ => none) disk
  writeChanges disk outcome.disk
  let finished ← IO.monoMsNow
  for line in outcome.lines (finished - started) do
    IO.println line
  for complaint in outcome.complaint do
    IO.eprintln complaint
  return outcome.exitCode.toUInt32

end CrossDoc.Program

def main (arguments : List String) : IO UInt32 := do
  match CrossDoc.Command.parse arguments with
  | .ok command =>
    try CrossDoc.Program.run command
    catch error =>
      IO.eprintln ("Error: " ++ error.toString)
      return 1
  | .error fault =>
    for complaint in fault.complaint do
      IO.eprintln complaint
    return fault.exitCode.toUInt32
