import CrossDoc.External.Basic
import CrossDoc.Link.Rule
import CrossDoc.Link.XrefUri

/-!
# Links into external projects

A link `xref:key/page#identifier` is looked up in the index of the project with that key. Only
projects whose index is loaded take part.
-/

namespace CrossDoc

/--
The first entry of an index that a page and an identifier denote. With an identifier, an entry must
have it as its own or as its anchor, and an entry that is implicit is found only on a page that is
named. Without one, only pages are found, and no page means the project's root.
-/
def RemoteIndex.find? (entries : List IndexEntry) (page : String) (identifier : Option String) :
    Option IndexEntry :=
  match identifier with
  | some identifier =>
    entries.find? (fun entry =>
      (if page.isEmpty then !entry.implicit else entry.url == page) &&
        (entry.identifier == some identifier || entry.htmlId == some identifier))
  | none =>
    entries.find? (fun entry =>
      entry.isPage && ((page.isEmpty && entry.url == "/") || entry.url == page))

structure LoadedProject where
  key : String
  url : String
  entries : List IndexEntry
deriving DecidableEq, Repr, Inhabited

namespace ExternalLink

def projects (references : List ProjectReference) : List LoadedProject :=
  references.filterMap (fun reference =>
    if reference.kind = .myst then
      reference.index.map (fun index =>
        { key := reference.key, url := reference.url, entries := index.entries })
    else none)

def protocol : String := "xref:myst"

/-- Whether a url starts with the scheme and the key of some project. -/
def claims (projects : List LoadedProject) (uri : String) : Bool :=
  let uri := (XrefUri.modernize uri).toList
  projects.any (fun project =>
    !project.key.isEmpty && (XrefUri.scheme ++ project.key).toList.isPrefixOf uri)

def failure (message : String) (link : Attributes) : Diagnostic where
  severity := .error
  message := message
  rule := .mystLinkValid
  source := some "LinkTransform:MystTransformer"
  node := some link.describe

def toEntry (link : Attributes) (project : LoadedProject) (entry : IndexEntry) : Attributes :=
  let link :=
    { link with
      isInternal := some false
      url := some (project.url ++ entry.url)
      dataUrl := some (project.url ++ entry.data)
      remoteBaseUrl := some project.url }
  if entry.isPage then link
  else
    { link with
      type := NodeType.crossReference
      isRemote := some true
      identifier := entry.identifier
      label := entry.identifier
      htmlId := entry.htmlId }

def resolve (projects : List LoadedProject) (link : Attributes) : Except Diagnostic Attributes :=
  let uri := XrefUri.modernize (link.writtenUrl.getD "")
  match XrefUri.parse uri with
  | .error _ => .error (failure ("Could not parse url for \"" ++ uri ++ "\"") link)
  | .ok parsed =>
    match projects.find? (fun project => project.key == parsed.key) with
    | none => .error (failure (Failure.unknownProject parsed.key uri).message link)
    | some project =>
      match RemoteIndex.find? project.entries parsed.page parsed.identifier with
      | none =>
        .error (failure ("\"" ++ uri ++ "\" not found in MyST project " ++ project.key ++
          " (" ++ project.url ++ ")") link)
      | some entry => .ok (toEntry link project entry)

def rule (projects : List LoadedProject) : LinkRule where
  protocol := protocol
  claims := claims projects
  resolve link :=
    { warnings := XrefUri.deprecation (link.writtenUrl.getD "") (some link)
      result := resolve projects link }

end ExternalLink

end CrossDoc
