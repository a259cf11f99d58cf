import CrossDoc.Proofs.Node.Section

/-!
# What trees carry

The attributes in a list of trees one after another, in document order (`carried`), and the number
of those with some property (`count`). What an identifier denotes in a tree is a part of the tree in
this order too (`carried_selectTarget_sublist`). A pass that replaces trees by trees that count no
more does not count more altogether (`count_flatMap_le`), and if it counts as many, then so does it
for every single tree (`count_eq_of_count_flatMap_eq`).
-/

namespace CrossDoc.Node

/-- The attributes of every node of a list of trees, in document order. -/
def carried (trees : List Node) : List Attributes :=
  (nodesOf trees).map (fun node => node.toAttributes)

theorem carried_append (trees others : List Node) :
    carried (trees ++ others) = carried trees ++ carried others := by
  simp [carried]

theorem carried_cons (tree : Node) (rest : List Node) :
    carried (tree :: rest) = carried [tree] ++ carried rest :=
  carried_append [tree] rest

theorem carried_eq_map_nodes (tree : Node) :
    carried [tree] = tree.nodes.map (fun node => node.toAttributes) := by
  simp [carried, nodesOf_eq_flatMap]

theorem carried_singleton (tree : Node) :
    carried [tree] = tree.toAttributes :: carried tree.children := by
  rw [carried_eq_map_nodes, nodes_eq_cons, List.map_cons, carried, nodesOf_eq_flatMap]

theorem mem_carried_iff {attributes : Attributes} {trees : List Node} :
    attributes ∈ carried trees ↔
      ∃ tree ∈ trees, ∃ node ∈ tree.nodes, node.toAttributes = attributes := by
  simp only [carried, nodesOf_eq_flatMap, List.mem_map, List.mem_flatMap]
  constructor
  · rintro ⟨node, ⟨tree, htree, hnode⟩, hsame⟩
    exact ⟨tree, htree, node, hnode, hsame⟩
  · rintro ⟨tree, htree, node, hnode, hsame⟩
    exact ⟨node, ⟨tree, htree, hnode⟩, hsame⟩

theorem carried_map_mapAttributes (f : Attributes → Attributes) (trees : List Node) :
    carried (trees.map (mapAttributes f)) = (carried trees).map f := by
  simp only [carried, nodesOf_eq_flatMap, List.flatMap_map, nodes_mapAttributes, ← List.map_flatMap,
    List.map_map]
  exact List.map_congr_left (fun node _ => toAttributes_mapAttributes f node)

/-! ## Parts of a tree -/

theorem carried_children_sublist (tree : Node) :
    (carried tree.children).Sublist (carried [tree]) := by
  rw [carried_eq_map_nodes]
  exact (nodesOf_children_sublist tree).map _

theorem carried_filterMap_sublist {f : Node → Option Node} {trees : List Node}
    (h : ∀ tree ∈ trees, ∀ kept, f tree = some kept → (carried [kept]).Sublist (carried [tree])) :
    (carried (trees.filterMap f)).Sublist (carried trees) := by
  induction trees with
  | nil => exact List.Sublist.refl _
  | cons tree rest ih =>
      have hrest := ih (fun other hother => h other (List.mem_cons_of_mem tree hother))
      rw [carried_cons]
      cases hkept : f tree with
      | none =>
          rw [List.filterMap_cons_none hkept]
          exact hrest.trans (List.sublist_append_right _ _)
      | some kept =>
          rw [List.filterMap_cons_some hkept, carried_cons]
          exact (h tree List.mem_cons_self kept hkept).append hrest

theorem carried_selectTarget_sublist (tree : Node) (identifier : String) :
    (carried (tree.selectTarget identifier)).Sublist (carried [tree]) := by
  rw [carried_eq_map_nodes]
  exact (nodesOf_selectTarget_sublist tree identifier).map _

/-! ## Counting -/

def count (p : Attributes → Bool) (trees : List Node) : Nat := (carried trees).countP p

variable {p : Attributes → Bool}

theorem count_eq_countP_nodes (tree : Node) :
    count p [tree] = tree.nodes.countP (fun node => p node.toAttributes) := by
  rw [count, carried_eq_map_nodes, List.countP_map]
  rfl

theorem count_append (trees others : List Node) :
    count p (trees ++ others) = count p trees + count p others := by
  rw [count, carried_append, List.countP_append, count, count]

theorem count_cons (tree : Node) (rest : List Node) :
    count p (tree :: rest) = count p [tree] + count p rest :=
  count_append [tree] rest

theorem count_singleton (node : Node) :
    count p [node] = count p node.children + if p node.toAttributes then 1 else 0 := by
  rw [count, carried_singleton, List.countP_cons, count]

theorem count_flatMap_le {f : Node → List Node} {trees : List Node}
    (h : ∀ tree ∈ trees, count p (f tree) ≤ count p [tree]) :
    count p (trees.flatMap f) ≤ count p trees := by
  induction trees with
  | nil => exact Nat.le_refl 0
  | cons tree rest ih =>
      have hfirst := h tree (by simp)
      have hrest := ih (fun other hmem => h other (by simp [hmem]))
      rw [List.flatMap_cons, count_append, count_cons]
      omega

theorem count_eq_of_count_flatMap_eq {f : Node → List Node} {trees : List Node}
    (h : ∀ tree ∈ trees, count p (f tree) ≤ count p [tree])
    (hcount : count p (trees.flatMap f) = count p trees) :
    ∀ tree ∈ trees, count p (f tree) = count p [tree] := by
  induction trees with
  | nil => simp
  | cons tree rest ih =>
      have hbelow := fun other hmem => h other (List.mem_cons_of_mem tree hmem)
      have hfirst := h tree (by simp)
      have hrest := count_flatMap_le hbelow
      rw [List.flatMap_cons, count_append, count_cons] at hcount
      intro other hmem
      rcases List.mem_cons.1 hmem with rfl | hmem
      · omega
      · exact ih hbelow (by omega) other hmem

end CrossDoc.Node
