import CrossDoc.Report
import CrossDoc.Target.PageTargets

/-!
# Enumeration

One walk through a tree in document order numbers its nodes and registers its targets. A node that
claims an identifier already taken is reported and not registered.
-/

namespace CrossDoc

structure Enumeration where
  page : PageTargets
  found : List Diagnostic := []
  registered : Nat := 0

variable [Text.Slugger]

namespace Enumeration

/-- The title of a target: a heading's text, or the text of a container's first caption. -/
def title? (node : Node) : Option String :=
  let text? :=
    if node.is NodeType.heading then some node.plainText
    else if node.is NodeType.container then
      (node.children.find? (fun child => child.is NodeType.caption)).map Node.plainText
    else none
  match (text?.map (fun text => Text.trim text.toList)).getD [] with
  | [] => none
  | text => some (String.ofList text)

/-- The attributes of a target, its identifier and label taken from the label where it has none. -/
def identify (attributes : Attributes) : Attributes :=
  match attributes.identifier, attributes.label.bind Label.normalize? with
  | none, some normal =>
    { attributes with identifier := some normal.identifier, label := some normal.label }
  | _, _ => attributes

def duplicate (file identifier : String) (attributes : Attributes) : Diagnostic where
  severity := .error
  message := "Duplicate identifier \"" ++ identifier ++ "\" in " ++ file
  rule := .referenceTargetUnique
  note := some "The first target with this identifier is kept"
  source := some "Enumerator"
  node := some attributes.describe

def target (page : PageTargets) (node : Node) (identifier htmlId : String) : Target where
  identifier := identifier
  kind := (TargetKind.ofNode? node.toAttributes).getD .generic
  enumerator := node.enumerator
  htmlId := htmlId
  url := page.targetUrl htmlId
  title := title? node

def register (state : Enumeration) (node : Node) : Attributes × Enumeration :=
  if !node.isTarget then (node.toAttributes, state)
  else
    let attributes := identify node.toAttributes
    match attributes.identifier with
    | none => (attributes, state)
    | some identifier =>
      -- the first target under it stays, and this node gets no anchor
      if state.page.contains identifier then
        (attributes,
          { state with found := state.found ++ [duplicate state.page.file identifier attributes] })
      else
        let htmlId := attributes.htmlId.getD (Label.anchor identifier)
        ({ attributes with htmlId := some htmlId },
          { state with
            page := state.page.register (target state.page node identifier htmlId)
            registered := state.registered + 1 })

def number (state : Enumeration) (attributes : Attributes) : Attributes × Enumeration :=
  let (enumerator, counters) := state.page.counters.assign state.page.numbering attributes
  -- a node that gets no number keeps the one it has
  ({ attributes with enumerator := enumerator <|> attributes.enumerator },
    { state with page := { state.page with counters } })

def visit (state : Enumeration) (node : Node) : Attributes × Enumeration :=
  -- numbered first, since the target shows the number
  let (attributes, state) := state.number node.toAttributes
  state.register ⟨attributes, node.children⟩

mutual
/-- Numbers and registers a node and then everything below it. -/
def walk (state : Enumeration) (node : Node) : Node × Enumeration :=
  match node with
  | ⟨attributes, children⟩ =>
    let (attributes, state) := state.visit ⟨attributes, children⟩
    let (children, state) := walkAll state children
    (⟨attributes, children⟩, state)

def walkAll (state : Enumeration) (trees : List Node) : List Node × Enumeration :=
  match trees with
  | [] => ([], state)
  | tree :: rest =>
    let (tree, state) := state.walk tree
    let (rest, state) := walkAll state rest
    (tree :: rest, state)
end

end Enumeration

/-- Numbers a tree and registers its targets with those the page has. -/
def PageTargets.enumerate (page : PageTargets) (tree : Node) : Node × Enumeration :=
  ({ page } : Enumeration).walk tree

/-- The targets of a page before its tree is enumerated: the page itself, where it has a label. -/
def Page.startTargets (page : Page) (file : String) (numbering : Numbering) : PageTargets :=
  let empty : PageTargets := { file, url := page.url, numbering }
  match page.frontmatter.label with
  | some label => empty.withFileTarget label page.frontmatter.title
  | none => empty

end CrossDoc
