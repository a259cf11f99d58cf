import CrossDoc.CommandLine.Arguments
import CrossDoc.CommandLine.Slug
import CrossDoc.Project.Documents

/-!
# The command line

Three commands: `init` writes default settings, `resolve` resolves a project and writes the result,
and `targets` lists what can be referred to. A command is run on a disk and leaves a disk, the lines
it prints and an exit code. The slugs of the program are those of `CommandLine.Slug`.
-/

namespace CrossDoc

/--
What a command leaves behind. Its lines are known once it is known how many milliseconds it took.
-/
structure CommandOutcome where
  exitCode : Nat
  lines : Nat → List String := fun _ => []
  complaint : Option String := none
  disk : Disk

namespace Command

variable [Text.Slugger]

/-! ## Lines -/

def pad (width : Nat) (text : String) : String :=
  text ++ String.ofList (List.replicate (width - text.length) ' ')

def findingLines (path : String) (finding : Diagnostic) : List String :=
  (path ++ ": " ++ finding.severity.name ++ " [" ++ finding.rule.name ++ "] " ++ finding.message) ::
    (finding.note.map ("  note: " ++ ·)).toList

def resolutionLines (resolution : ProjectResolution) (directory : String) (milliseconds : Nat) :
    List String :=
  resolution.documents.flatMap (fun document =>
      document.report.entries.flatMap (findingLines document.path)) ++
    ["Resolved " ++ toString resolution.documents.length ++ " documents into " ++ directory ++
      " in " ++ toString milliseconds ++ "ms (" ++ toString resolution.findingCount ++
      " diagnostics, " ++ toString resolution.graph.edgeCount ++ " dependency edges)"]

def targetLine (target : Target) : String :=
  "  " ++ pad 24 target.identifier ++ " " ++ pad 9 target.kind.name ++ " " ++
    pad 8 (target.enumerator.getD "-") ++ " " ++ target.url

def listing (numbering : Numbering) (documents : List SourceDocument) :
    List (String × List Target) :=
  documents.map (fun document =>
    let enumerated := document.enumerate numbering
    (enumerated.path, enumerated.targets.targets.values))

def listingLines (listing : List (String × List Target)) : List String :=
  listing.flatMap (fun entry => entry.1 :: entry.2.map targetLine)

def listingJson (listing : List (String × List Target)) : Json :=
  (Json.obj (listing.map (fun entry => (entry.1, .arr (entry.2.map Target.toJson))))).canonical

/-! ## Running -/

def open? (disk : Disk) (root : String) : Except Failure (Settings × List SourceDocument) := do
  let settings ← Settings.load disk root
  let documents ← SourceDocument.loadAll disk root settings
  return (settings, documents)

/-- A failure ends a command with an exit code of its own and nothing printed. -/
def failed (failure : Failure) (disk : Disk) : CommandOutcome :=
  { exitCode := 1, complaint := some ("Error: " ++ failure.message), disk }

def runInit (disk : Disk) (root : String) : CommandOutcome :=
  match Settings.save disk root { rootDir := root } with
  | .error failure => failed failure disk
  | .ok disk =>
    { exitCode := 0, disk
      lines := fun _ => ["Initialized xrefkit at " ++ Settings.directory root] }

def runResolve (source : RemoteSource) (disk : Disk) (root : String) (out : Option String) :
    CommandOutcome :=
  match open? disk root with
  | .error failure => failed failure disk
  | .ok (settings, documents) =>
    let (references, cache) := RemoteCache.projects source settings.projects {}
    let (resolution, _) := resolveProject source settings.numbering references documents cache
    let directory := out.getD (Disk.joinPath (Disk.joinPath root "_build") "resolved")
    match resolution.write directory disk with
    | (disk, .error _) => failed .io disk
    | (disk, .ok _) =>
      { exitCode := if resolution.hasErrors then 1 else 0
        disk
        lines := resolutionLines resolution directory }

def runTargets (disk : Disk) (root : String) (json : Bool) : CommandOutcome :=
  match open? disk root with
  | .error failure => failed failure disk
  | .ok (settings, documents) =>
    let listing := listing settings.numbering documents
    { exitCode := 0, disk
      lines := fun _ => if json then [(listingJson listing).toText] else listingLines listing }

def root (disk : Disk) : Command → String
  | .init path | .resolve path _ | .targets path _ => path.getD disk.cwdPath

def run (source : RemoteSource) (disk : Disk) (command : Command) : CommandOutcome :=
  let root := command.root disk
  match command with
  | .init _ => runInit disk root
  | .resolve _ out => runResolve source disk root out
  | .targets _ json => runTargets disk root json

/-- Runs the command that arguments name, if they name one. -/
def runArguments (source : RemoteSource) (disk : Disk) (arguments : List String) :
    CommandOutcome :=
  match parse arguments with
  | .ok command => command.run source disk
  | .error fault => { exitCode := fault.exitCode, complaint := fault.complaint, disk }

end Command

end CrossDoc
