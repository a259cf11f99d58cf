import CrossDoc.Node.Walk
import Mathlib.Data.List.Basic
import Mathlib.Data.List.Flatten

/-!
# Walks through a tree

Induction over trees, and the document order of what a pass over attributes gives: `nodes` of the
changed tree are the changed `nodes`, so such a pass keeps the shape of a tree.
-/

namespace CrossDoc.Node

/-- A property holds of every tree once it passes from the children of a node to the node. -/
@[elab_as_elim]
theorem induction {motive : Node → Prop}
    (node : ∀ attributes children, (∀ child ∈ children, motive child) →
      motive ⟨attributes, children⟩) (tree : Node) : motive tree :=
  match tree with
  | ⟨attributes, children⟩ => node attributes children (fun child hmem =>
      have : sizeOf child < sizeOf children := List.sizeOf_lt_of_mem hmem
      induction node child)
termination_by sizeOf tree
decreasing_by
  simp only [Node.mk.sizeOf_spec]
  omega

/-! ## Document order -/

theorem nodesOf_eq_flatMap (trees : List Node) : nodesOf trees = trees.flatMap nodes := by
  induction trees with
  | nil => simp [nodesOf]
  | cons tree rest ih => simp [nodesOf, ih]

theorem nodes_eq_cons (tree : Node) : tree.nodes = tree :: tree.children.flatMap nodes := by
  cases tree
  rw [nodes, nodesOf_eq_flatMap]

@[simp] theorem nodesOf_append (trees others : List Node) :
    nodesOf (trees ++ others) = nodesOf trees ++ nodesOf others := by
  simp [nodesOf_eq_flatMap]

theorem nodesOf_sublist {trees others : List Node} (h : trees.Sublist others) :
    (nodesOf trees).Sublist (nodesOf others) := by
  rw [nodesOf_eq_flatMap, nodesOf_eq_flatMap]
  exact h.flatMap nodes

theorem nodesOf_children_sublist (tree : Node) : (nodesOf tree.children).Sublist tree.nodes := by
  rw [nodes_eq_cons, nodesOf_eq_flatMap]
  exact List.sublist_cons_self _ _

theorem mem_nodes_self (tree : Node) : tree ∈ tree.nodes := by
  rw [nodes_eq_cons]
  exact List.mem_cons_self

theorem mem_nodes_iff {tree node : Node} :
    node ∈ tree.nodes ↔ node = tree ∨ ∃ child ∈ tree.children, node ∈ child.nodes := by
  rw [nodes_eq_cons, List.mem_cons, List.mem_flatMap]

theorem forall_mem_nodes_iff {p : Node → Prop} {node : Node} :
    (∀ found ∈ node.nodes, p found) ↔ p node ∧ ∀ child ∈ node.children, ∀ found ∈ child.nodes,
      p found := by
  constructor
  · intro h
    exact ⟨h node (mem_nodes_self node), fun child hchild found hfound =>
      h found (mem_nodes_iff.2 (Or.inr ⟨child, hchild, hfound⟩))⟩
  · rintro ⟨hself, hbelow⟩ found hfound
    rcases mem_nodes_iff.1 hfound with rfl | ⟨child, hchild, hfound⟩
    · exact hself
    · exact hbelow child hchild found hfound

/-! ## Passes over attributes -/

theorem mapAttributesOf_eq_map (f : Attributes → Attributes) (trees : List Node) :
    mapAttributesOf f trees = trees.map (mapAttributes f) := by
  induction trees with
  | nil => simp [mapAttributesOf]
  | cons tree rest ih => simp [mapAttributesOf, ih]

@[simp] theorem toAttributes_mapAttributes (f : Attributes → Attributes) (tree : Node) :
    (tree.mapAttributes f).toAttributes = f tree.toAttributes := by
  cases tree
  rw [mapAttributes]

@[simp] theorem children_mapAttributes (f : Attributes → Attributes) (tree : Node) :
    (tree.mapAttributes f).children = tree.children.map (mapAttributes f) := by
  cases tree
  rw [mapAttributes, mapAttributesOf_eq_map]

theorem nodes_mapAttributes (f : Attributes → Attributes) (tree : Node) :
    (tree.mapAttributes f).nodes = tree.nodes.map (mapAttributes f) := by
  induction tree using induction with
  | node attributes children ih =>
      rw [nodes_eq_cons, nodes_eq_cons ⟨attributes, children⟩, List.map_cons,
        children_mapAttributes, List.flatMap_map, List.map_flatMap]
      exact congrArg _ (List.flatMap_congr ih)

theorem mapAttributes_mapAttributes (f g : Attributes → Attributes) (tree : Node) :
    (tree.mapAttributes f).mapAttributes g =
      tree.mapAttributes (fun attributes => g (f attributes)) := by
  induction tree using induction with
  | node attributes children ih =>
      simp only [mapAttributes, mapAttributesOf_eq_map, List.map_map]
      exact congrArg (Node.mk (g (f attributes))) (List.map_congr_left ih)

theorem mapAttributes_eq_mapAttributes_iff {f g : Attributes → Attributes} {tree : Node} :
    tree.mapAttributes f = tree.mapAttributes g ↔
      ∀ node ∈ tree.nodes, f node.toAttributes = g node.toAttributes := by
  induction tree using induction with
  | node attributes children ih =>
      rw [mapAttributes, mapAttributes, mapAttributesOf_eq_map, mapAttributesOf_eq_map,
        Node.mk.injEq, List.map_inj_left, forall_mem_nodes_iff]
      exact and_congr_right (fun _ => forall₂_congr ih)

theorem plainTextOf_eq_of_forall {trees : List Node} {f : Node → Node}
    (h : ∀ tree ∈ trees, (f tree).plainText = tree.plainText) :
    plainTextOf (trees.map f) = plainTextOf trees := by
  induction trees with
  | nil => rfl
  | cons tree rest ih =>
      simp only [List.map_cons, plainTextOf]
      rw [h tree (by simp), ih (fun other hmem => h other (by simp [hmem]))]

theorem plainText_mapAttributes {f : Attributes → Attributes}
    (hvalue : ∀ attributes, (f attributes).value = attributes.value) (tree : Node) :
    (tree.mapAttributes f).plainText = tree.plainText := by
  induction tree using induction with
  | node attributes children ih =>
      rw [mapAttributes, mapAttributesOf_eq_map, plainText, plainText, hvalue,
        plainTextOf_eq_of_forall ih]

end CrossDoc.Node
