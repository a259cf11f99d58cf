import CrossDoc.CrossReference
import CrossDoc.External.Cache
import CrossDoc.Link.External
import CrossDoc.Node.Walk

/-!
# References to remote pages

A reference into another project shows the text of its target: the number or the text of what it
names on the remote page, or the title of that page. A reference that has text of its own keeps it.
-/

namespace CrossDoc

namespace RemoteReference

def finding (message note : String) : Diagnostic where
  severity := .warning
  message := message
  rule := .mystLinkValid
  note := some note
  source := some "RemoteCrossReferences"

def noPage (label : String) : Diagnostic :=
  finding ("Unable to resolve link text from external MyST reference: " ++ label)
    "Could not load data from external project"

def noTarget (label identifier : String) : Diagnostic :=
  finding ("Unable to resolve content from external MyST reference: " ++ label)
    ("Could not locate identifier " ++ identifier ++ " in page content")

def content (page : RemotePage) (identifier label : String) : Except Diagnostic (List Node) :=
  match page.content.selectTarget identifier with
  | [] => .error (noTarget label identifier)
  | nodes => .ok nodes

structure Request where
  dataUrl : String
  identifier : Option String
  label : String
deriving DecidableEq, Repr, Inhabited

structure Update where
  children : List Node
  enumerator : Option String := none

/--
Whether a node is a reference to a remote page that lacks text, or names a target whose number
counts.
-/
def isWanting (node : Node) : Bool :=
  let isReference := node.is NodeType.crossReference
  (node.is NodeType.link || isReference) &&
    (node.protocol == some ExternalLink.protocol || (isReference && node.isRemote == some true)) &&
    node.dataUrl.isSome && (node.children.isEmpty || node.identifier.isSome)

def request? (node : Node) : Option Request :=
  node.dataUrl.map (fun dataUrl =>
    { dataUrl, identifier := node.identifier, label := node.writtenUrl.getD "" })

def requests (tree : Node) : List (Path × Request) :=
  (tree.collectPaths isWanting).filterMap (fun path =>
    ((tree.at? path).bind request?).map (fun request => (path, request)))

def answer (request : Request) : Option RemotePage → Except Diagnostic Update
  | none => .error (noPage request.label)
  | some page =>
    match request.identifier with
    | none => .ok { children := [.text ((page.frontmatter.title <|> page.slug).getD "")] }
    | some identifier => do
      let nodes ← content page identifier request.label
      match nodes with
      | [] => .ok { children := [] }
      | target :: _ =>
        .ok { children := target.referenceText?.getD [], enumerator := target.enumerator }

/-- The node with what it was given; text it has already stays. -/
def Update.apply (update : Update) (node : Node) : Node :=
  { node with
    children := if node.children.isEmpty then update.children else node.children
    enumerator := update.enumerator <|> node.enumerator }

structure Outcome where
  tree : Node
  updated : Nat
  found : List Diagnostic

def findings {α : Type} (answers : List (Except Diagnostic α)) : List Diagnostic :=
  answers.flatMap (fun answer =>
    match answer with
    | .ok _ => []
    | .error diagnostic => [diagnostic])

def applyAll (tree : Node) (answers : List (Path × Except Diagnostic Update)) : Node :=
  answers.foldl
    (fun tree entry =>
      match entry.2 with
      | .ok update => tree.modifyAt update.apply entry.1
      | .error _ => tree)
    tree

/-- Gives every reference of a tree to a remote page its text. -/
def resolve (source : RemoteSource) (tree : Node) (cache : RemoteCache) : Outcome × RemoteCache :=
  let requests := requests tree
  let (pages, cache) :=
    RemoteCache.each (fun entry => RemoteCache.page source entry.2.dataUrl) requests cache
  let answers := (requests.zip pages).map (fun entry => (entry.1.1, answer entry.1.2 entry.2))
  let results := answers.map (·.2)
  ({ tree := applyAll tree answers
     updated := results.countP (fun result => result.toBool)
     found := findings results },
    cache)

end RemoteReference

end CrossDoc
