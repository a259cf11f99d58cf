import CrossDoc.Proofs.Node.Walk

/-!
# Nodes with what is above them

The nodes of a tree in document order, each followed by the nodes above it (`lineages`). What the
attributes are along every such list (`outline`) tells a tree: how its nodes follow each other, and
which of them stands in which.
-/

namespace CrossDoc

/-- A node and the nodes above it, the nearest first. -/
abbrev Lineage := List Node

namespace Node

section

variable {α β : Type}

mutual
/--
What `f` says of every node of a tree, in document order, each followed by what it says of the nodes
above it; `above` is what it says of those above the tree.
-/
def chains (f : Node → α) (above : List α) (node : Node) : List (List α) :=
  match node with
  | ⟨attributes, children⟩ =>
    (f ⟨attributes, children⟩ :: above) :: chainsOf f (f ⟨attributes, children⟩ :: above) children

def chainsOf (f : Node → α) (above : List α) (trees : List Node) : List (List α) :=
  match trees with
  | [] => []
  | tree :: rest => tree.chains f above ++ chainsOf f above rest
end

variable {f : Node → α} {above : List α} {tree node : Node} {trees : List Node}

theorem chainsOf_eq_flatMap (f : Node → α) (above : List α) (trees : List Node) :
    chainsOf f above trees = trees.flatMap (chains f above) := by
  induction trees with
  | nil => rw [chainsOf]; rfl
  | cons tree rest ih => rw [chainsOf, List.flatMap_cons, ih]

theorem chains_eq_cons (f : Node → α) (above : List α) (node : Node) :
    node.chains f above =
      (f node :: above) :: node.children.flatMap (chains f (f node :: above)) := by
  cases node
  rw [chains, chainsOf_eq_flatMap]

theorem map_chains (g : α → β) (f : Node → α) (above : List α) (tree : Node) :
    (tree.chains f above).map (List.map g) = tree.chains (g ∘ f) (above.map g) := by
  induction tree using induction generalizing above with
  | node attributes children ih =>
      rw [chains_eq_cons, chains_eq_cons, List.map_cons, List.map_flatMap]
      exact congrArg _ (List.flatMap_congr (fun child hchild => ih child hchild _))

theorem map_head?_chains (f : Node → α) (above : List α) (tree : Node) :
    (tree.chains f above).map List.head? = tree.nodes.map (fun node => some (f node)) := by
  induction tree using induction generalizing above with
  | node attributes children ih =>
      rw [chains_eq_cons, nodes_eq_cons, List.map_cons, List.map_cons, List.map_flatMap,
        List.map_flatMap]
      exact congrArg _ (List.flatMap_congr (fun child hchild => ih child hchild _))

theorem chains_mapAttributes (f : Node → α) (g : Attributes → Attributes) (above : List α)
    (tree : Node) : (tree.mapAttributes g).chains f above =
      tree.chains (fun node => f (node.mapAttributes g)) above := by
  induction tree using induction generalizing above with
  | node attributes children ih =>
      rw [chains_eq_cons, chains_eq_cons, children_mapAttributes, List.flatMap_map]
      exact congrArg _ (List.flatMap_congr (fun child hchild => ih child hchild _))

theorem exists_append_of_mem_chains {chain : List α} (h : chain ∈ tree.chains f above) :
    ∃ lower, chain = lower ++ f tree :: above := by
  induction tree using induction generalizing above with
  | node attributes children ih =>
      rw [chains_eq_cons, List.mem_cons, List.mem_flatMap] at h
      rcases h with rfl | ⟨child, hchild, hmem⟩
      · exact ⟨[], rfl⟩
      · obtain ⟨lower, hlower⟩ := ih child hchild hmem
        exact ⟨lower ++ [f child], by rw [hlower, List.append_assoc, List.singleton_append]⟩

end

def lineages (tree : Node) : List Lineage := tree.chains id []

def outline (tree : Node) : List (List Attributes) := tree.chains (fun node => node.toAttributes) []

theorem outline_eq_map_lineages (tree : Node) :
    tree.outline = tree.lineages.map (List.map (fun node => node.toAttributes)) := by
  rw [lineages, map_chains]
  rfl

end Node

namespace Lineage

def Linked (lineage : Lineage) : Prop :=
  lineage.IsChain (fun child parent => child ∈ parent.children)

theorem linked_of_mem_chains {tree : Node} {above lineage : Lineage} (h : Linked (tree :: above))
    (hmem : lineage ∈ tree.chains id above) : Linked lineage := by
  induction tree using Node.induction generalizing above with
  | node attributes children ih =>
      rw [Node.chains_eq_cons, List.mem_cons, List.mem_flatMap] at hmem
      rcases hmem with rfl | ⟨child, hchild, hmem⟩
      · exact h
      · exact ih child hchild (List.isChain_cons_cons.2 ⟨hchild, h⟩) hmem

theorem linked_of_mem_lineages {tree : Node} {lineage : Lineage} (h : lineage ∈ tree.lineages) :
    Linked lineage :=
  linked_of_mem_chains (List.IsChain.singleton tree) h

theorem mem_nodes_of_mem_chains {tree node : Node} {above lineage : Lineage}
    (hmem : lineage ∈ tree.chains id above) (hnode : node ∈ lineage) :
    node ∈ tree.nodes ∨ node ∈ above := by
  induction tree using Node.induction generalizing above with
  | node attributes children ih =>
      rw [Node.chains_eq_cons, List.mem_cons, List.mem_flatMap] at hmem
      rcases hmem with rfl | ⟨child, hchild, hmem⟩
      · rcases List.mem_cons.1 hnode with rfl | hnode
        · exact Or.inl (Node.mem_nodes_self _)
        · exact Or.inr hnode
      · rcases ih child hchild hmem with hbelow | habove
        · exact Or.inl (Node.mem_nodes_iff.2 (Or.inr ⟨child, hchild, hbelow⟩))
        · rcases List.mem_cons.1 habove with rfl | habove
          · exact Or.inl (Node.mem_nodes_self _)
          · exact Or.inr habove

end Lineage

end CrossDoc
