import CrossDoc.Page

/-!
# Content trees

The content of a page is a tree of nodes. The attributes that resolution reads or writes have fields
of their own; whatever else a node carries is kept untouched.
-/

namespace CrossDoc

/-- Whether a node stays in the tree, or is to be replaced by its children. -/
inductive Disposition where
  | keep
  | elide
deriving DecidableEq, Repr, Inhabited

/-- Everything a node carries besides its children. -/
structure Attributes where
  type : String := ""
  identifier : Option String := none
  label : Option String := none
  htmlId : Option String := none
  enumerator : Option String := none
  enumerated : Option Bool := none
  depth : Option UInt32 := none
  kind : Option String := none
  value : Option String := none
  url : Option String := none
  urlSource : Option String := none
  dataUrl : Option String := none
  isInternal : Option Bool := none
  isRemote : Option Bool := none
  remoteBaseUrl : Option String := none
  protocol : Option String := none
  source : Option Dependency := none
  removeOutput : Option Bool := none
  removeInput : Option Bool := none
  extra : SortedMap Json := ∅
  disposition : Disposition := .keep

instance : Inhabited Attributes := ⟨{}⟩

structure Node extends Attributes where
  children : List Node := []

instance : Inhabited Node := ⟨{}⟩

/-! ## Types of nodes -/

namespace NodeType

def root : String := "root"
def block : String := "block"
def text : String := "text"
def heading : String := "heading"
def container : String := "container"
def caption : String := "caption"
def legend : String := "legend"
def math : String := "math"
def code : String := "code"
def output : String := "output"
def link : String := "link"
def crossReference : String := "crossReference"
def cite : String := "cite"
def footnoteDefinition : String := "footnoteDefinition"
def footnoteReference : String := "footnoteReference"
def embed : String := "embed"

/-- The types whose identifier names something else and not the node itself. -/
def pointing : List String := [crossReference, cite, footnoteDefinition, footnoteReference]

end NodeType

namespace Attributes

def is (attributes : Attributes) (type : String) : Bool := attributes.type == type

/-- The type that a notebook gives the content of a cell. -/
def dataType (attributes : Attributes) : Option String := do
  let data ← attributes.extra.get? "data"
  let type ← data.get? "type"
  type.str?

def isTarget (attributes : Attributes) : Bool :=
  (attributes.identifier.isSome || attributes.label.isSome || attributes.htmlId.isSome) &&
    !NodeType.pointing.contains attributes.type

/-- Whether a node with these attributes is what `identifier` refers to. -/
def isTargetFor (identifier : String) (attributes : Attributes) : Bool :=
  attributes.identifier == some identifier && attributes.isTarget

def withoutIdentity (attributes : Attributes) : Attributes :=
  { attributes with identifier := none, label := none, htmlId := none }

/-- The url a link was written with, as far as it is known. -/
def writtenUrl (attributes : Attributes) : Option String :=
  attributes.urlSource <|> attributes.url

end Attributes

namespace Node

def of (attributes : Attributes) (children : List Node) : Node := ⟨attributes, children⟩

def ofType (type : String) (children : List Node) : Node := { type, children }

def text (value : String) : Node := { type := NodeType.text, value := some value }

def link (url : String) : Node :=
  { type := NodeType.link, url := some url, urlSource := some url }

mutual
/-- The values of a node and of everything below it, in document order. -/
def plainText (node : Node) : String :=
  match node with
  | ⟨attributes, children⟩ => attributes.value.getD "" ++ plainTextOf children

def plainTextOf (nodes : List Node) : String :=
  match nodes with
  | [] => ""
  | node :: rest => node.plainText ++ plainTextOf rest
end

end Node

end CrossDoc
