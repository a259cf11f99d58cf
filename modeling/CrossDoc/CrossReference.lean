import CrossDoc.Index
import CrossDoc.Node.Walk
import CrossDoc.Report

/-!
# Cross-references inside the project

A cross-reference names a target by its identifier. It is looked for on its own page first and then
on every page of the project. References into other projects are left alone.
-/

namespace CrossDoc

namespace CrossReference

/-- The identifier that a cross-reference looks for, if it is one into this project. -/
def wanted? (attributes : Attributes) : Option String :=
  if attributes.is NodeType.crossReference && attributes.isRemote != some true then
    attributes.identifier <|> attributes.label.bind Label.identifier?
  else none

/--
The target of an identifier as seen from the page `file`, with the path of the page that owns it.
-/
def lookUp? (index : ProjectIndex) (file identifier : String) : Option (String × Target) :=
  index.resolve? identifier (some file) <|> index.resolve? identifier none

def target? (index : ProjectIndex) (file : String) (attributes : Attributes) :
    Option (String × Target) :=
  (wanted? attributes).bind (lookUp? index file)

def resolved (file owner : String) (target : Target) (attributes : Attributes) : Attributes :=
  { attributes with
    identifier := some target.identifier
    htmlId := some target.htmlId
    kind := some target.kind.name
    enumerator := target.enumerator
    -- on the page of the target the anchor alone, whatever its kind
    url := some (if owner = file then "#" ++ target.htmlId else target.url) }

def ownText (target : Target) : List Node := (target.linkText?.map Node.text).toList

mutual
/-- The tree with every cross-reference resolved that has a target. -/
def resolve (index : ProjectIndex) (file : String) (node : Node) : Node :=
  match node with
  | ⟨attributes, children⟩ =>
    match target? index file attributes with
    | none => ⟨attributes, resolveAll index file children⟩
    | some (owner, target) =>
      ⟨resolved file owner target attributes,
        if children.isEmpty then ownText target else resolveAll index file children⟩

def resolveAll (index : ProjectIndex) (file : String) (trees : List Node) : List Node :=
  match trees with
  | [] => []
  | tree :: rest => resolve index file tree :: resolveAll index file rest
end

def missing (index : ProjectIndex) (file : String) (attributes : Attributes) : List Diagnostic :=
  match wanted? attributes with
  | none => []
  | some identifier =>
    if (lookUp? index file identifier).isSome then []
    else
      [{ severity := .warning
         message := "Cross reference target was not found: " ++ identifier
         rule := .referenceTargetResolves
         source := some "CrossReferenceResolver"
         node := some attributes.describe }]

def findings (index : ProjectIndex) (file : String) (tree : Node) : List Diagnostic :=
  tree.nodes.flatMap (fun node => missing index file node.toAttributes)

def count (index : ProjectIndex) (file : String) (tree : Node) : Nat :=
  tree.nodes.countP (fun node => (target? index file node.toAttributes).isSome)

end CrossReference

/--
The text of a reference to a node that was copied from elsewhere: its number, or else what a heading
holds, or else its plain text.
-/
def Node.referenceText? (node : Node) : Option (List Node) :=
  let numbered? : Option String := do
    let kind ← TargetKind.ofNode? node.toAttributes
    kind.numbered? (← node.enumerator)
  match numbered? with
  | some text => some [.text text]
  | none =>
    if node.is NodeType.heading && !node.children.isEmpty then some node.children
    else
      match Text.trim node.plainText.toList with
      | [] => none
      | text => some [.text (String.ofList text)]

end CrossDoc
