import CrossDoc.Node.Walk

/-!
# Lifting

Once embeds are filled, some wrappers say nothing that their content does not say. They are marked
and then replaced by their children:

* an embed that is the only embed of a container, which takes over its source; and if all that this
  embed holds is a container, that container too, with its captions and legends, for the outer
  caption counts;
* any other embed that holds a container and nothing else, which takes over its source.
-/

namespace CrossDoc.Node

/-! ## Replacing marked nodes -/

def isElided (node : Node) : Bool := node.disposition == .elide

mutual
/-- The tree with every marked node below the root replaced by its children. -/
def liftElided (node : Node) : Node :=
  match node with
  | ⟨attributes, children⟩ => ⟨attributes, liftAll children⟩

def liftAll (trees : List Node) : List Node :=
  match trees with
  | [] => []
  | tree :: rest =>
    let lifted := tree.liftElided
    if lifted.isElided then lifted.children ++ liftAll rest else lifted :: liftAll rest
end

def elidedBelow (node : Node) : Nat := (nodesOf node.children).countP isElided

/-! ## Marking -/

/-- What a node is to its parent when wrappers are marked. -/
inductive Role where
  | plain
  | soleEmbed
  | inner
deriving DecidableEq, Repr, Inhabited

def isCaption (attributes : Attributes) : Bool :=
  attributes.is NodeType.caption || attributes.is NodeType.legend

def counted (strip : Bool) (children : List Node) : List Node :=
  children.filter (fun child => !(strip && isCaption child.toAttributes))

def soleEmbed? (siblings : List Node) : Option Node :=
  match siblings.filter (fun child => child.is NodeType.embed) with
  | [embed] => some embed
  | _ => none

def isSoleContainer (siblings : List Node) : Bool :=
  match siblings with
  | [node] => node.is NodeType.container
  | _ => false

/--
The embed that a container with these attributes and children takes its source from, if it stays.
-/
def takenOver? (role : Role) (attributes : Attributes) (children : List Node) : Option Node :=
  if attributes.is NodeType.container && attributes.disposition != .elide && role != .inner then
    soleEmbed? children
  else none

def markedAttributes (role : Role) (taken : Option Node) (attributes : Attributes) : Attributes :=
  { attributes with
    -- a node that is marked already stays so
    disposition := if role = .plain then attributes.disposition else .elide
    source :=
      match taken with
      | some embed => embed.source
      | none => attributes.source }

def childRole (role : Role) (taken : Option Node) (siblings : List Node) (child : Attributes) :
    Role :=
  if taken.isSome && child.is NodeType.embed then .soleEmbed
  else if role = .soleEmbed && isSoleContainer siblings then .inner
  else .plain

mutual
/--
Marks the wrappers around the content of sole embeds. `strip` says that captions and legends are
dropped here, `role` what the node is to its parent.
-/
def markSole (strip : Bool) (role : Role) (node : Node) : Node :=
  match node with
  | ⟨attributes, children⟩ =>
    -- the inner container loses its captions, and so does all below it; the outer one keeps its own
    let strip := strip || role = .inner
    let siblings := counted strip children
    let taken := takenOver? role attributes siblings
    ⟨markedAttributes role taken attributes,
      markSoleAll strip (childRole role taken siblings) children⟩

def markSoleAll (strip : Bool) (role : Attributes → Role) (siblings : List Node) : List Node :=
  match siblings with
  | [] => []
  | node :: rest =>
    if strip && isCaption node.toAttributes then markSoleAll strip role rest
    else markSole strip (role node.toAttributes) node :: markSoleAll strip role rest
end

def wrapsContainer (attributes : Attributes) (children : List Node) : Bool :=
  attributes.is NodeType.embed && attributes.disposition != .elide && isSoleContainer children

mutual
/--
Marks the embeds that hold a container and nothing else, and hands the container their source.
-/
def markWrappers (node : Node) : Node :=
  match node with
  | ⟨attributes, children⟩ =>
    if wrapsContainer attributes children then
      ⟨{ attributes with disposition := .elide },
        markWrappersAll (some attributes.source) children⟩
    else ⟨attributes, markWrappersAll none children⟩

def markWrappersAll (source : Option (Option Dependency)) (siblings : List Node) : List Node :=
  match siblings with
  | [] => []
  | node :: rest =>
    let marked := markWrappers node
    { marked with source := source.getD marked.source } :: markWrappersAll source rest
end

/-- The tree with the wrappers marked that say nothing of their own. -/
def markLifted (tree : Node) : Node := markWrappers (markSole false .plain tree)

def liftEmbeds (tree : Node) : Node := (markLifted tree).liftElided

def liftCount (tree : Node) : Nat := (markLifted tree).elidedBelow

end CrossDoc.Node
