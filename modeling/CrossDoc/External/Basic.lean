import CrossDoc.Node.Record

/-!
# External projects

Another project publishes an index of what can be referred to in it, and the data of each of its
pages.
-/

namespace CrossDoc

inductive ProjectKind where
  | myst
  | generic
deriving DecidableEq, Repr, Inhabited

/-- One entry of a project's index: where a target is, and where the data of its page are. -/
structure IndexEntry where
  identifier : Option String := none
  htmlId : Option String := none
  url : String
  data : String := ""
  kind : String
  implicit : Bool := false
deriving DecidableEq, Repr, Inhabited

structure RemoteIndex where
  version : Option String := none
  entries : List IndexEntry := []
deriving DecidableEq, Repr, Inhabited

structure ExternalProject where
  key : String
  url : String
  kind : ProjectKind := .myst
deriving DecidableEq, Repr, Inhabited

structure ProjectReference where
  key : String
  url : String
  kind : ProjectKind
  index : Option RemoteIndex := none
deriving DecidableEq, Repr, Inhabited

structure RemotePage where
  content : Node
  frontmatter : Frontmatter := {}
  slug : Option String := none
  kind : Option String := none
  location : Option String := none

namespace ProjectKind

def name : ProjectKind → String
  | myst => "myst"
  | generic => "generic"

def all : List ProjectKind := [myst, generic]

def decode : Json.Decoder ProjectKind :=
  Json.Decoder.variant (all.map (fun kind => (kind.name, kind)))

end ProjectKind

namespace IndexEntry

def isPage (entry : IndexEntry) : Bool := entry.kind == "page"

def fields : List Json.Field :=
  [.spare "identifier", .spare "html_id", .needed "url", .spare "data", .needed "kind",
   .spare "implicit"]

def toJson (entry : IndexEntry) : Json :=
  .obj (Json.member? "identifier" .str entry.identifier ++
    Json.member? "html_id" .str entry.htmlId ++
    [("url", .str entry.url), ("data", .str entry.data), ("kind", .str entry.kind),
     ("implicit", .bool entry.implicit)])

def decode : Json.Decoder IndexEntry := Json.record "MystXref" fields (fun members =>
  mk <$> members.optional "identifier" Json.Decoder.text
    <*> members.optional "html_id" Json.Decoder.text
    <*> members.required "url" Json.Decoder.text
    <*> members.orDefault "data" Json.Decoder.text ""
    <*> members.required "kind" Json.Decoder.text
    <*> members.orDefault "implicit" Json.Decoder.boolean false)

end IndexEntry

namespace RemoteIndex

def fields : List Json.Field :=
  [.spare "version", .spare "references" (.list (.ofFields IndexEntry.fields))]

def toJson (index : RemoteIndex) : Json :=
  .obj [("version", Json.orNull .str index.version),
    ("references", .arr (index.entries.map IndexEntry.toJson))]

def decode : Json.Decoder RemoteIndex := Json.record "MystXrefs" fields (fun members =>
  mk <$> members.optional "version" Json.Decoder.text
    <*> members.orDefault "references" (Json.Decoder.list IndexEntry.decode) [])

end RemoteIndex

namespace ExternalProject

/-- The url of a project without slashes at its end. -/
def baseUrl (project : ExternalProject) : String :=
  String.ofList (project.url.toList.reverse.dropWhile (· == '/')).reverse

def indexUrl (project : ExternalProject) : String := project.baseUrl ++ "/myst.xref.json"

def unloaded (project : ExternalProject) : ProjectReference :=
  { key := project.key, url := project.baseUrl, kind := project.kind }

def fields : List Json.Field := [.needed "key", .needed "url", .spare "kind"]

def toJson (project : ExternalProject) : Json :=
  .obj [("key", .str project.key), ("url", .str project.url), ("kind", .str project.kind.name)]

def decode : Json.Decoder ExternalProject :=
  Json.record "ExternalReferenceConfig" fields (fun members =>
    mk <$> members.required "key" Json.Decoder.text
      <*> members.required "url" Json.Decoder.text
      <*> members.orDefault "kind" ProjectKind.decode .myst)

end ExternalProject

namespace ProjectReference

def fields : List Json.Field :=
  [.needed "key", .needed "url", .needed "kind", .spare "value" (.ofFields RemoteIndex.fields)]

def toJson (reference : ProjectReference) : Json :=
  .obj ([("key", .str reference.key), ("url", .str reference.url),
      ("kind", .str reference.kind.name)] ++
    Json.member? "value" RemoteIndex.toJson reference.index)

def decode : Json.Decoder ProjectReference :=
  Json.record "ExternalReference" fields (fun members =>
    mk <$> members.required "key" Json.Decoder.text
      <*> members.required "url" Json.Decoder.text
      <*> members.required "kind" ProjectKind.decode
      <*> members.optional "value" RemoteIndex.decode)

end ProjectReference

namespace RemotePage

def fields : List Json.Field :=
  [.needed "mdast" Node.shape, .spare "frontmatter" (.ofFields Frontmatter.fields), .spare "slug",
   .spare "kind", .spare "location"]

def toJson (page : RemotePage) : Json :=
  .obj [("mdast", page.content.toJson), ("frontmatter", page.frontmatter.toJson),
    ("slug", Json.orNull .str page.slug), ("kind", Json.orNull .str page.kind),
    ("location", Json.orNull .str page.location)]

def decode : Json.Decoder RemotePage := Json.record "RemoteDocument" fields (fun members =>
  mk <$> members.required "mdast" Node.decode
    <*> members.orDefault "frontmatter" Frontmatter.decode {}
    <*> members.optional "slug" Json.Decoder.text
    <*> members.optional "kind" Json.Decoder.text
    <*> members.optional "location" Json.Decoder.text)

end RemotePage

end CrossDoc
