import CrossDoc.Page
import CrossDoc.Embed.Fill
import CrossDoc.Embed.Lift
import CrossDoc.External.Reference
import CrossDoc.Link.Internal

/-!
# Embeds

An embed names content of this project or of another one by a label. Once its content is found, the
embed holds a copy of it and says where it comes from; an embed whose content is not found stays as
it is.
-/

namespace CrossDoc

/-- What the embeds of a page are resolved against. -/
structure EmbedScope where
  file : String
  index : ProjectIndex
  /-- The content of the pages of the project, before any embed is filled. -/
  trees : SortedMap Node
  projects : List LoadedProject

structure Embedded where
  target : Node
  source : Dependency
  /-- The page of this project that the content comes from, if it is not the page itself. -/
  localFile : Option String

structure EmbedAnswer where
  result : Option Embedded := none
  found : List Diagnostic := []

namespace Embed

def label? (attributes : Attributes) : Option String :=
  if attributes.is NodeType.embed then
    (attributes.source.bind (·.label)).filter (fun label => !label.isEmpty)
  else none

/-- The outermost embeds of a tree that have a label, with their paths. -/
def requests (tree : Node) : List (Path × String) :=
  (tree.collectPaths (fun node => (label? node.toAttributes).isSome)).filterMap (fun path =>
    ((tree.at? path).bind (fun node => label? node.toAttributes)).map (fun label => (path, label)))

/-! ## Content of this project -/

def unresolved (label note : String) : EmbedAnswer where
  found :=
    [{ severity := .warning
       message := "Embed target \"" ++ label ++ "\" could not be resolved"
       rule := .embedTargetResolves
       note := some note
       source := some "EmbedTransform" }]

/-- The document that a label names, if it names one, and the label of the target in it. -/
def localParts (file label : String) : Option String × String :=
  match Text.cut? '#' label.toList with
  -- a bare fragment names no document, not even the page itself
  | some ([], target) => (none, String.ofList target)
  | some (path, target) =>
    (some (RelativePath.resolve file (String.ofList path)), String.ofList target)
  | none => (none, label)

def contentOf (page : PageTargets) (identifier : String) (tree : Node) : List Node :=
  if page.isFileTarget identifier then tree.children else tree.selectTarget identifier

def resolveLocal (scope : EmbedScope) (label : String) : EmbedAnswer :=
  let (file?, target) := localParts scope.file label
  match Label.identifier? target with
  | none => unresolved label "Embed label has no identifier"
  | some identifier =>
    match scope.index.owner? identifier file? with
    | none =>
      unresolved label ("No document in the project defines \"" ++ identifier ++ "\"")
    | some (owner, page) =>
      match scope.trees.get? owner with
      | none => unresolved label ("Document " ++ owner ++ " has not been resolved")
      | some tree =>
        -- by the identifier of the label, even if the page resolves it as an anchor
        match contentOf page.targets identifier tree with
        | [] => unresolved label ("\"" ++ identifier ++ "\" has no content in " ++ owner)
        | nodes =>
          let content := Node.ofType NodeType.block nodes
          let isOwn := owner == scope.file
          { result := some {
              -- bare anchors in it are places on the page it comes from
              target := if isOwn then content else content.anchorTo page.targets.url
              source := page.page.dependency label
              localFile := if isOwn then none else some owner } }

/-! ## Content of other projects -/

/--
The content of a remote page that a label names, where `reference` is the label as a resolved link.
-/
def resolveRemote (label : String) (reference : Attributes) :
    Option RemotePage → Except Diagnostic Embedded
  | none => .error (RemoteReference.noPage label)
  | some page => do
    let nodes ←
      match reference.identifier with
      | some identifier => RemoteReference.content page identifier label
      | none => .ok page.content.children
    let source : Dependency :=
      { url := reference.url, remoteBaseUrl := reference.remoteBaseUrl, label := some label }
    .ok {
      target := (Node.ofType NodeType.block nodes).rebase reference
      source := source.withPageDetails page.kind page.slug page.location page.frontmatter
      localFile := none }

def askRemote (source : RemoteSource) (scope : EmbedScope) (label : String) (cache : RemoteCache) :
    EmbedAnswer × RemoteCache :=
  let answer := (ExternalLink.rule scope.projects).resolve (Node.link label).toAttributes
  match answer.result with
  | .error _ => ({ found := answer.found }, cache)
  | .ok reference =>
    match reference.dataUrl with
    | none => ({ found := answer.found }, cache)
    | some dataUrl =>
      let (page, cache) := cache.page source dataUrl
      match resolveRemote label reference page with
      | .ok embedded => ({ result := some embedded, found := answer.found }, cache)
      | .error diagnostic => ({ found := answer.found ++ [diagnostic] }, cache)

/-! ## All embeds of a page -/

def resolve (source : RemoteSource) (scope : EmbedScope) (label : String) (cache : RemoteCache) :
    EmbedAnswer × RemoteCache :=
  if ExternalLink.claims scope.projects label then askRemote source scope label cache
  else (resolveLocal scope label, cache)

def fillWith (embedded : Embedded) (embed : Node) : Node :=
  { Node.fill (some embedded.target) embed with source := some embedded.source }

/-- What the embeds of a page add to and are added to. -/
structure Books where
  tree : Node
  dependencies : List Dependency
  graph : DependencyGraph

def Books.enter (books : Books) (file : String) (path : Path) (embedded : Embedded) : Books where
  tree := books.tree.modifyAt (fillWith embedded) path
  dependencies := Dependency.pushUnique books.dependencies embedded.source
  graph :=
    match embedded.localFile with
    | some owner => books.graph.add file owner
    | none => books.graph

def Books.enterAll (books : Books) (file : String) (answers : List (Path × EmbedAnswer)) : Books :=
  answers.foldl
    (fun books entry =>
      match entry.2.result with
      | some embedded => books.enter file entry.1 embedded
      | none => books)
    books

structure Outcome where
  books : Books
  resolved : Nat
  found : List Diagnostic

/-- Fills every embed of a page whose content is found, and lifts the wrappers that are left. -/
def resolveAll (source : RemoteSource) (scope : EmbedScope) (books : Books) (cache : RemoteCache) :
    Outcome × RemoteCache :=
  let requests := requests books.tree
  -- all of them are asked for before any is filled
  let (answers, cache) :=
    RemoteCache.each (fun entry => resolve source scope entry.2) requests cache
  let filled := books.enterAll scope.file ((requests.map (·.1)).zip answers)
  ({ books := { filled with tree := filled.tree.liftEmbeds }
     resolved := answers.countP (fun answer => answer.result.isSome)
     found := answers.flatMap (·.found) },
    cache)

end Embed

end CrossDoc
