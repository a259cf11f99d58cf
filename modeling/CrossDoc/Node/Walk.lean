import CrossDoc.Node.Basic

/-!
# Walks through a tree

The nodes of a tree in document order, passes that treat every node alike or take nodes out together
with everything below them, the paths that lead from the root to a node, and what a reference to a
node denotes: the node, or for a heading its section, which is the heading and what follows it up to
the next heading that is not deeper.
-/

namespace CrossDoc

namespace Node

mutual
/-- A node and everything below it, in document order. -/
def nodes (node : Node) : List Node :=
  match node with
  | ⟨attributes, children⟩ => ⟨attributes, children⟩ :: nodesOf children

def nodesOf (trees : List Node) : List Node :=
  match trees with
  | [] => []
  | tree :: rest => tree.nodes ++ nodesOf rest
end

def selectAll (node : Node) (p : Node → Bool) : List Node := node.nodes.filter p

mutual
def mapAttributes (f : Attributes → Attributes) (node : Node) : Node :=
  match node with
  | ⟨attributes, children⟩ => ⟨f attributes, mapAttributesOf f children⟩

def mapAttributesOf (f : Attributes → Attributes) (trees : List Node) : List Node :=
  match trees with
  | [] => []
  | tree :: rest => tree.mapAttributes f :: mapAttributesOf f rest
end

/-! ## Pruning -/

mutual
/--
The tree without the nodes that fail `keep`, nor those that lose all their children by it. Nothing
is left if that reaches the root.
-/
def filter? (keep : Attributes → Bool) (node : Node) : Option Node :=
  match node with
  | ⟨attributes, []⟩ => if keep attributes then some ⟨attributes, []⟩ else none
  | ⟨attributes, child :: rest⟩ =>
    if keep attributes then
      match filterAll keep (child :: rest) with
      | [] => none
      | kept => some ⟨attributes, kept⟩
    else none

def filterAll (keep : Attributes → Bool) (trees : List Node) : List Node :=
  match trees with
  | [] => []
  | tree :: rest =>
    match tree.filter? keep with
    | some kept => kept :: filterAll keep rest
    | none => filterAll keep rest
end

mutual
def removeDescendants (type : String) (node : Node) : Node :=
  match node with
  | ⟨attributes, children⟩ => ⟨attributes, removeAll type children⟩

def removeAll (type : String) (trees : List Node) : List Node :=
  match trees with
  | [] => []
  | tree :: rest =>
    if tree.is type then removeAll type rest
    else tree.removeDescendants type :: removeAll type rest
end

end Node

/-! ## Paths -/

/-- The places of the children that lead from a root to one of its descendants. -/
abbrev Path := List Nat

namespace Node

def at? (node : Node) : Path → Option Node
  | [] => some node
  | place :: path => (node.children[place]?).bind (fun child => child.at? path)

def modifyAt (f : Node → Node) : Path → Node → Node
  | [], node => f node
  | place :: path, node =>
    { node with children := node.children.modify place (modifyAt f path) }

mutual
/-- The paths of the outermost nodes that `p` holds of, in document order. -/
def collectPaths (p : Node → Bool) (node : Node) : List Path :=
  match node with
  | ⟨attributes, children⟩ =>
    if p ⟨attributes, children⟩ then [[]] else collectPathsFrom p 0 children

def collectPathsFrom (p : Node → Bool) (place : Nat) (siblings : List Node) : List Path :=
  match siblings with
  | [] => []
  | node :: rest =>
    (node.collectPaths p).map (place :: ·) ++ collectPathsFrom p (place + 1) rest
end

end Node

/-! ## What a reference denotes -/

namespace Node

/-- The depth of a heading; a heading that does not say is at the top. -/
def headingDepth (node : Node) : UInt32 := node.depth.getD 1

def endsSection (depth : UInt32) (node : Node) : Bool :=
  node.is NodeType.heading && node.headingDepth ≤ depth

/-- What a reference to `node` denotes, where `following` are the siblings after it. -/
def denoted (node : Node) (following : List Node) : List Node :=
  if node.is NodeType.heading then
    node :: following.takeWhile (fun sibling => !sibling.endsSection node.headingDepth)
  else [node]

mutual
/-- What `identifier` denotes strictly below a node, if anything. -/
def denotedBelow? (identifier : String) (node : Node) : Option (List Node) :=
  match node with
  | ⟨_, children⟩ => denotedAmong? identifier children

def denotedAmong? (identifier : String) (siblings : List Node) : Option (List Node) :=
  match siblings with
  | [] => none
  | node :: rest =>
    if node.isTargetFor identifier then some (node.denoted rest)
    else
      match node.denotedBelow? identifier with
      | some found => some found
      | none => denotedAmong? identifier rest
end

/--
What `identifier` denotes in a tree: nothing if there is no such target, else one node or a section.
-/
def selectTarget (root : Node) (identifier : String) : List Node :=
  if root.isTargetFor identifier then [root]
  else (root.denotedBelow? identifier).getD []

end Node

end CrossDoc
