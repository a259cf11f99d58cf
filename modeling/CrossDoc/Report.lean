import CrossDoc.Node.Basic

/-!
# Reports and failures

What resolution finds wrong with a page is noted in the report of that page and never stops the run.
Every entry names the rule it is raised under. A failure makes an operation fail as a whole.
-/

namespace CrossDoc

inductive Severity where
  | warning
  | error
deriving DecidableEq, Repr, Inhabited

inductive Rule where
  | mystLinkValid
  | referenceTargetUnique
  | referenceTargetResolves
  | linkResolves
  | embedTargetResolves
deriving DecidableEq, Repr, Inhabited

structure Diagnostic where
  severity : Severity
  message : String
  rule : Rule
  note : Option String := none
  source : Option String := none
  node : Option String := none
deriving DecidableEq, Repr, Inhabited

structure Report where
  file : String
  entries : List Diagnostic := []
deriving DecidableEq, Repr, Inhabited

namespace Severity

def name : Severity → String
  | warning => "warning"
  | error => "error"

def all : List Severity := [warning, error]

def decode : Json.Decoder Severity :=
  Json.Decoder.variant (all.map (fun severity => (severity.name, severity)))

end Severity

namespace Rule

def name : Rule → String
  | mystLinkValid => "myst-link-valid"
  | referenceTargetUnique => "reference-target-unique"
  | referenceTargetResolves => "reference-target-resolves"
  | linkResolves => "link-resolves"
  | embedTargetResolves => "embed-target-resolves"

def all : List Rule :=
  [mystLinkValid, referenceTargetUnique, referenceTargetResolves, linkResolves, embedTargetResolves]

def decode : Json.Decoder Rule :=
  Json.Decoder.variant (all.map (fun rule => (rule.name, rule)))

end Rule

/-- A node as a finding shows it: its type with its identifier, or else its url. -/
def Attributes.describe (attributes : Attributes) : String :=
  match attributes.identifier <|> attributes.writtenUrl with
  | some detail => attributes.type ++ "(" ++ detail ++ ")"
  | none => attributes.type

namespace Diagnostic

def fields : List Json.Field :=
  [.needed "severity", .needed "message", .needed "ruleId", .needed "note", .needed "source",
   .needed "node"]

def toJson (diagnostic : Diagnostic) : Json :=
  .obj ([("severity", .str diagnostic.severity.name), ("message", .str diagnostic.message),
      ("ruleId", .str diagnostic.rule.name)] ++
    Json.member? "note" .str diagnostic.note ++
    Json.member? "source" .str diagnostic.source ++
    Json.member? "node" .str diagnostic.node)

def decode : Json.Decoder Diagnostic := Json.record "Diagnostic" fields (fun members =>
  mk <$> members.required "severity" Severity.decode
    <*> members.required "message" Json.Decoder.text
    <*> members.required "ruleId" Rule.decode
    <*> members.optional "note" Json.Decoder.text
    <*> members.optional "source" Json.Decoder.text
    <*> members.optional "node" Json.Decoder.text)

end Diagnostic

namespace Report

def push (report : Report) (diagnostic : Diagnostic) : Report :=
  { report with entries := report.entries ++ [diagnostic] }

def add (report : Report) (found : List Diagnostic) : Report :=
  { report with entries := report.entries ++ found }

def ofSeverity (report : Report) (severity : Severity) : List Diagnostic :=
  report.entries.filter (fun entry => entry.severity == severity)

def hasErrors (report : Report) : Bool :=
  report.entries.any (fun entry => entry.severity == .error)

def fields : List Json.Field :=
  [.needed "file", .needed "entries" (.list (.ofFields Diagnostic.fields))]

def toJson (report : Report) : Json :=
  .obj [("file", .str report.file), ("entries", .arr (report.entries.map Diagnostic.toJson))]

def decode : Json.Decoder Report := Json.record "Diagnostics" fields (fun members =>
  mk <$> members.required "file" Json.Decoder.text
    <*> members.required "entries" (Json.Decoder.list Diagnostic.decode))

end Report

/-! ## Failures -/

inductive Failure where
  | invalidUri (message uri : String)
  | unknownProject (key uri : String)
  | fetch (message url : String)
  | document (message path : String)
  | config (message : String)
  | json (message : String)
  | io
deriving DecidableEq, Repr, Inhabited

namespace Failure

def kind : Failure → String
  | invalidUri .. => "InvalidUri"
  | unknownProject .. => "UnknownProject"
  | fetch .. => "Fetch"
  | document .. => "Document"
  | config .. => "Config"
  | json .. => "Json"
  | io => "Io"

/-- A failure in words; what the system says of a file is not known here. -/
def message : Failure → String
  | invalidUri message uri => "invalid reference uri: " ++ message ++ " (uri: " ++ uri ++ ")"
  | unknownProject key uri => "unknown project \"" ++ key ++ "\" for link: " ++ uri
  | fetch message url => "fetch error: " ++ message ++ " (url: " ++ url ++ ")"
  | document message path => "document error: " ++ message ++ " (path: " ++ path ++ ")"
  | config message => "config error: " ++ message
  | json message => "json error: " ++ message
  | io => "io error"

end Failure

end CrossDoc
