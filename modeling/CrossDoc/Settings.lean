import CrossDoc.External.Basic
import CrossDoc.Text.Glob

/-!
# Settings

What a project can set: which of its files are documents, what is numbered, and which other projects
its links may lead into.
-/

namespace CrossDoc

structure Numbering where
  figure : Bool := true
  table : Bool := true
  code : Bool := true
  equation : Bool := true
  headings : Bool := false
  headingStart : UInt32 := 1
deriving DecidableEq, Repr, Inhabited

structure Settings where
  version : UInt32 := 1
  rootDir : String := ""
  includes : List String := ["**/*.json"]
  excludes : List String := ["_build/**", ".xrefkit/**", "node_modules/**"]
  numbering : Numbering := {}
  projects : List ExternalProject := []
  /-- The time that fetching one url may take, in seconds. -/
  fetchTimeout : UInt64 := 10
deriving DecidableEq, Repr, Inhabited

namespace Numbering

def fields : List Json.Field :=
  [.spare "figure", .spare "table", .spare "code", .spare "equation", .spare "headings",
   .spare "heading_start"]

def toJson (numbering : Numbering) : Json :=
  .obj [("figure", .bool numbering.figure), ("table", .bool numbering.table),
    ("code", .bool numbering.code), ("equation", .bool numbering.equation),
    ("headings", .bool numbering.headings),
    ("heading_start", Json.nat numbering.headingStart.toNat)]

def decode : Json.Decoder Numbering := Json.record "NumberingConfig" fields (fun members =>
  let default : Numbering := {}
  mk <$> members.orDefault "figure" Json.Decoder.boolean default.figure
    <*> members.orDefault "table" Json.Decoder.boolean default.table
    <*> members.orDefault "code" Json.Decoder.boolean default.code
    <*> members.orDefault "equation" Json.Decoder.boolean default.equation
    <*> members.orDefault "headings" Json.Decoder.boolean default.headings
    <*> members.orDefault "heading_start" Json.Decoder.word32 default.headingStart)

end Numbering

namespace Settings

/--
Whether the file at a path, relative to the project and with slashes, is a document: some pattern
includes it and none excludes it.
-/
def admits (settings : Settings) (path : String) : Bool :=
  !settings.excludes.any (fun pattern => Text.globMatches pattern path) &&
    settings.includes.any (fun pattern => Text.globMatches pattern path)

def fields : List Json.Field :=
  [.spare "version", .spare "root_dir", .spare "include", .spare "exclude",
   .spare "numbering" (.ofFields Numbering.fields),
   .spare "references" (.list (.ofFields ExternalProject.fields)),
   .spare "fetch_timeout_secs"]

def toJson (settings : Settings) : Json :=
  .obj [("version", Json.nat settings.version.toNat), ("root_dir", .str settings.rootDir),
    ("include", Json.texts settings.includes), ("exclude", Json.texts settings.excludes),
    ("numbering", settings.numbering.toJson),
    ("references", .arr (settings.projects.map ExternalProject.toJson)),
    ("fetch_timeout_secs", Json.nat settings.fetchTimeout.toNat)]

def decode : Json.Decoder Settings := Json.record "XrefConfig" fields (fun members =>
  let default : Settings := {}
  let patterns := Json.Decoder.list Json.Decoder.text
  let projects := Json.Decoder.list ExternalProject.decode
  mk <$> members.orDefault "version" Json.Decoder.word32 default.version
    <*> members.orDefault "root_dir" Json.Decoder.text default.rootDir
    <*> members.orDefault "include" patterns default.includes
    <*> members.orDefault "exclude" patterns default.excludes
    <*> members.orDefault "numbering" Numbering.decode default.numbering
    <*> members.orDefault "references" projects default.projects
    <*> members.orDefault "fetch_timeout_secs" Json.Decoder.word64 default.fetchTimeout)

end Settings

end CrossDoc
