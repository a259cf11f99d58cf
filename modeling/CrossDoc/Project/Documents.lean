import CrossDoc.Json.Printer
import CrossDoc.Json.Reader
import CrossDoc.Project.Disk
import CrossDoc.Project.Resolution
import CrossDoc.Report
import CrossDoc.Settings

/-!
# A project on disk

The settings of a project are kept in a file of a hidden directory, and a project without that file
has the default settings. Every document is a file with its content and its frontmatter. Its path in
the project tells where its page is; pages that would share a place are told apart by a number. What
results from resolving the project is written to a directory of its own.
-/

namespace CrossDoc

namespace Settings

def directoryName : String := ".xrefkit"

def fileName : String := "config.json"

def directory (root : String) : String := Disk.joinPath root directoryName

def file (root : String) : String := Disk.joinPath (directory root) fileName

def failure (action path reason : String) : Failure :=
  .config ("cannot " ++ action ++ " " ++ path ++ ": " ++ reason)

/-- The settings of the project at `root`, or the default ones if it has none. -/
def load (disk : Disk) (root : String) : Except Failure Settings :=
  let path := file root
  if !disk.isFile path then .ok { rootDir := root }
  else
    match disk.read path with
    | .error fault => .error (failure "read" path fault.message)
    | .ok text =>
      (Json.decodeText decode (.ofFields fields) text).mapError (failure "parse" path)

def save (disk : Disk) (root : String) (settings : Settings) : Except Failure Disk := do
  let disk ← (disk.makeDirectories (directory root)).mapError (fun fault =>
    failure "create" (directory root) fault.message)
  (disk.write (file root) (.text settings.toJson.toText)).mapError (fun fault =>
    failure "write" (file root) fault.message)

end Settings

/-! ## Documents -/

structure SourceFile where
  frontmatter : Frontmatter := {}
  kind : Option String := none
  content : Node

namespace SourceFile

def fields : List Json.Field :=
  [.spare "frontmatter" (.ofFields Frontmatter.fields), .spare "kind", .needed "mdast" Node.shape]

def toJson (file : SourceFile) : Json :=
  .obj ([("frontmatter", file.frontmatter.toJson)] ++
    Json.member? "kind" .str file.kind ++
    [("mdast", file.content.toJson)])

def decode : Json.Decoder SourceFile := Json.record "SourceFile" fields (fun members =>
  mk <$> members.orDefault "frontmatter" Frontmatter.decode {}
    <*> members.optional "kind" Json.Decoder.text
    <*> members.required "mdast" Node.decode)

end SourceFile

namespace SourceDocument

variable [Text.Slugger]

/-! ## Names -/

def fileEnding : List Char := ['.', 'j', 's', 'o', 'n']

/-- The path of a document in the project: the path of its file without the ending. -/
def key (path : String) : String :=
  if fileEnding.isSuffixOf path.toList then
    String.ofList (path.toList.take (path.toList.length - fileEnding.length))
  else path

/--
The segments that a slug is made of: the directories, and the file's name up to its first point.
-/
def slugSegments (key : List Char) : List (List Char) :=
  let segments := Text.splitAt (· == '/') key
  segments.dropLast ++
    (segments.getLast?.map (fun name => name.takeWhile (· != '.'))).toList

def slug (key : String) : String :=
  let segments := ((slugSegments key.toList).map Text.slug).filter (fun segment => !segment.isEmpty)
  match Text.join ['/'] segments with
  | [] => "index"
  | slug => String.ofList slug

def numberedSlug (base : String) (n : Nat) : String :=
  if n = 0 then base else base ++ "-" ++ toString n

/-- The least number that makes a slug none of those taken; there is one up to their count. -/
def freeNumber (taken : List String) (base : String) : Nat :=
  ((List.range (taken.length + 1)).find? (fun n => !taken.contains (numberedSlug base n))).getD
    taken.length

def claimSlug (taken : List String) (page : Page) : Page :=
  let number := freeNumber taken page.slug
  if number = 0 then page
  else
    let slug := numberedSlug page.slug number
    { page with slug, url := "/" ++ slug }

/-- A list of documents, each under a slug that no earlier one has. -/
def claimSlugs (taken : List String) : List SourceDocument → List SourceDocument
  | [] => []
  | document :: rest =>
    let page := claimSlug taken document.page
    { document with page } :: claimSlugs (page.slug :: taken) rest

/-! ## Reading -/

def ofFile (path : String) (file : SourceFile) : SourceDocument :=
  let key := key path
  let slug := slug key
  { path := key
    page := {
      slug
      url := "/" ++ slug
      kind := file.kind
      location := some ("/" ++ key)
      frontmatter := file.frontmatter }
    content := file.content }

def load (disk : Disk) (root path : String) : Except Failure SourceDocument :=
  match disk.read (if path.isEmpty then root ++ "/" else Disk.joinPath root path) with
  | .error _ => .error .io
  | .ok text =>
    match Json.decodeText SourceFile.decode (.ofFields SourceFile.fields) text with
    | .error message => .error (.document ("invalid document: " ++ message) path)
    | .ok file => .ok (ofFile path file)

def isHidden (path : String) : Bool :=
  (Disk.segments path).any (fun segment => segment.startsWith ".")

def withSlashes (path : String) : String :=
  String.ofList (path.toList.map (fun c => if c = '\\' then '/' else c))

/-- The paths of a project's documents, relative to it, with slashes and sorted. -/
def scan (disk : Disk) (root : String) (settings : Settings) : List String :=
  let candidates :=
    if disk.isFile root then [""]
    else ((disk.filesBelow root).map (·.1)).filter (fun path => !isHidden path)
  ((candidates.map withSlashes).filter settings.admits).mergeSort

def loadAll (disk : Disk) (root : String) (settings : Settings) :
    Except Failure (List SourceDocument) :=
  ((scan disk root settings).mapM (load disk root)).map (claimSlugs [])

end SourceDocument

/-! ## Writing -/

namespace ResolvedDocument

def toJson (document : ResolvedDocument) : Json :=
  .obj [("path", .str document.path), ("mdast", document.content.toJson),
    ("dependencies", .arr (document.dependencies.map Dependency.toJson))]

end ResolvedDocument

namespace ProjectResolution

def dependenciesFile : String := "dependencies.json"

def files (resolution : ProjectResolution) : List (String × String) :=
  resolution.documents.map (fun document => (document.path ++ ".json", document.toJson.toText)) ++
    [(dependenciesFile, resolution.graph.toJson.toText)]

/-- Writes files below a directory up to the first that cannot be written. -/
def writeFiles (directory : String) : List (String × String) → Disk → Disk × Except DiskFault Unit
  | [], disk => (disk, .ok ())
  | (name, text) :: rest, disk =>
    match disk.writeDeep (Disk.joinPath directory name) (.text text) with
    | .ok disk => writeFiles directory rest disk
    | .error fault => (disk, .error fault)

def write (resolution : ProjectResolution) (directory : String) (disk : Disk) :
    Disk × Except DiskFault Unit :=
  match disk.makeDirectories directory with
  | .ok disk => writeFiles directory resolution.files disk
  | .error fault => (disk, .error fault)

end ProjectResolution

end CrossDoc
