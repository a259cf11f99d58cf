import CrossDoc.SortedMap
import CrossDoc.Text.Basic

/-!
# Files and directories

A disk is a value: the files with their text, and the directories. Paths are texts as a user writes
them; they are followed one segment after another, and every directory on the way has to be there.
-/

namespace CrossDoc

/-- What a file holds: text, or bytes that are no text. -/
inductive FileContent where
  | text (s : String)
  | binary
deriving DecidableEq, Repr, Inhabited

inductive DiskFault where
  | notFound
  | exists
  | notDirectory
  | isDirectory
  | tooLong
  | zeroChar
  | notText
deriving DecidableEq, Repr, Inhabited

namespace DiskFault

def message : DiskFault → String
  | notFound => "No such file or directory (os error 2)"
  | .exists => "File exists (os error 17)"
  | notDirectory => "Not a directory (os error 20)"
  | isDirectory => "Is a directory (os error 21)"
  | tooLong => "File name too long (os error 36)"
  | zeroChar => "file name contained an unexpected NUL byte"
  | notText => "stream did not contain valid UTF-8"

end DiskFault

/-- A place on a disk: the names that lead to it from the root, last first. -/
abbrev Place := List String

def Place.path (place : Place) : String := String.join (place.reverse.map ("/" ++ ·))

/-- The files and directories of a system, and the directory that relative paths start from. -/
structure Disk where
  cwd : Place := []
  files : SortedMap FileContent := ∅
  directories : SortedMap Unit := ∅

namespace Disk

instance : Inhabited Disk := ⟨{}⟩

def cwdPath (disk : Disk) : String := if disk.cwd.isEmpty then "/" else disk.cwd.path

/-- Puts a name behind a path; a name that starts at the root stands for itself. -/
def joinPath (path name : String) : String :=
  if name.startsWith "/" || path.isEmpty then name
  else if path.endsWith "/" then path ++ name
  else path ++ "/" ++ name

def isDirectory (disk : Disk) (place : Place) : Bool :=
  place.isEmpty || disk.directories.contains place.path

def isFileAt (disk : Disk) (place : Place) : Bool := disk.files.contains place.path

def longestName : Nat := 255

def longestPath : Nat := 4095

def follow (disk : Disk) (place : Place) (segment : String) : Except DiskFault Place :=
  if !disk.isDirectory place then
    .error (if disk.isFileAt place then .notDirectory else .notFound)
  else if segment = "" || segment = "." then .ok place
  -- the root is its own parent
  else if segment = ".." then .ok (place.drop 1)
  else if longestName < segment.utf8ByteSize then .error .tooLong
  else .ok (segment :: place)

def segments (path : String) : List String :=
  (Text.splitAt (· == '/') path.toList).map String.ofList

def start (disk : Disk) (path : String) : Place := if path.startsWith "/" then [] else disk.cwd

/--
What is wrong with a path before it is followed: no path holds a zero character or is too long.
-/
def pathFault? (path : String) : Option DiskFault :=
  if path.toList.contains '\x00' then some .zeroChar
  else if longestPath < path.utf8ByteSize then some .tooLong
  else none

def locate (disk : Disk) (path : String) : Except DiskFault Place :=
  match pathFault? path with
  | some fault => .error fault
  | none =>
    if path.isEmpty then .error .notFound
    else (segments path).foldlM disk.follow (disk.start path)

def isFile (disk : Disk) (path : String) : Bool :=
  match disk.locate path with
  | .ok place => disk.isFileAt place
  | .error _ => false

def read (disk : Disk) (path : String) : Except DiskFault String := do
  let place ← disk.locate path
  match disk.files.get? place.path with
  | some (.text s) => .ok s
  | some .binary => .error .notText
  | none => .error (if disk.isDirectory place then .isDirectory else .notFound)

def addDirectory (disk : Disk) (place : Place) : Disk :=
  { disk with directories := disk.directories.insert place.path () }

def namesItself (segments : List String) : Bool :=
  segments.contains "." && segments.all (fun segment => segment = "" || segment = ".")

/--
Follows segments from a place and makes the directories that are missing. A directory that is named
as its own `.` at the end of a path has to be there already.
-/
def makeFrom (disk : Disk) (place : Place) : List String → Except DiskFault Disk
  | [] => .ok disk
  | segment :: rest => do
    let next ← disk.follow place segment
    if disk.isDirectory next then makeFrom disk next rest
    else if disk.isFileAt next then .error (if rest.isEmpty then .exists else .notDirectory)
    else if namesItself rest then .error .notFound
    else makeFrom (disk.addDirectory next) next rest

def makeDirectories (disk : Disk) (path : String) : Except DiskFault Disk :=
  match pathFault? path with
  | some fault => .error fault
  | none => if path.isEmpty then .ok disk else disk.makeFrom (disk.start path) (segments path)

def write (disk : Disk) (path : String) (content : FileContent) : Except DiskFault Disk := do
  let place ← disk.locate path
  if disk.isDirectory place then .error .isDirectory
  else if !disk.isDirectory (place.drop 1) then .error .notFound
  else .ok { disk with files := disk.files.insert place.path content }

def parent (path : String) : String :=
  String.ofList (Text.join ['/'] (Text.splitAt (· == '/') path.toList).dropLast)

def writeDeep (disk : Disk) (path : String) (content : FileContent) : Except DiskFault Disk := do
  let disk ← disk.makeDirectories (parent path)
  disk.write path content

/-- The paths of the files below the directory that a path names, relative to it and sorted. -/
def filesBelow (disk : Disk) (path : String) : List (String × FileContent) :=
  match disk.locate path with
  | .error _ => []
  | .ok place =>
    disk.files.entries.filterMap (fun entry =>
      ((place.path ++ "/").toList.isPrefixOf? entry.1.toList).map (fun rest =>
        (String.ofList rest, entry.2)))

end Disk

end CrossDoc
