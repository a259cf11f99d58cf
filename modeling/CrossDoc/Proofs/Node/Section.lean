import CrossDoc.Node.Walk
import CrossDoc.Proofs.Node.Walk

/-!
# What a reference denotes in a tree

What an identifier denotes is a part of the tree (`nodesOf_selectTarget_sublist`). It starts with
the first node in document order that is a target for the identifier (`head?_selectTarget`), so it
is something just if some node of the tree is (`selectTarget_eq_nil_iff`).
-/

namespace CrossDoc.Node

variable {tree node : Node} {identifier : String}

/-! ## Only nodes of the tree -/

theorem denoted_sublist (node : Node) (following : List Node) :
    (node.denoted following).Sublist (node :: following) := by
  unfold denoted
  split
  · exact (List.takeWhile_sublist _).cons_cons node
  · exact (List.nil_sublist following).cons_cons node

theorem nodesOf_denotedBelow?_sublist {found : List Node}
    (h : tree.denotedBelow? identifier = some found) :
    (nodesOf found).Sublist (nodesOf tree.children) := by
  induction tree using induction generalizing found with
  | node attributes children ih =>
      rw [denotedBelow?] at h
      simp only
      induction children with
      | nil => simp [denotedAmong?] at h
      | cons first rest ihrest =>
          rw [denotedAmong?] at h
          split at h
          · obtain rfl := Option.some.inj h
            exact nodesOf_sublist (denoted_sublist first rest)
          · rw [nodesOf]
            split at h
            · rename_i below hbelow
              obtain rfl := Option.some.inj h
              have hfirst := (ih first List.mem_cons_self hbelow).trans
                (nodesOf_children_sublist first)
              exact hfirst.trans (List.sublist_append_left first.nodes (nodesOf rest))
            · have hrest := ihrest (fun child hchild => ih child (List.mem_cons_of_mem _ hchild)) h
              exact hrest.trans (List.sublist_append_right first.nodes (nodesOf rest))

theorem nodesOf_selectTarget_sublist (tree : Node) (identifier : String) :
    (nodesOf (tree.selectTarget identifier)).Sublist tree.nodes := by
  unfold selectTarget
  split
  · simp [nodesOf]
  · cases hbelow : tree.denotedBelow? identifier with
    | none => exact List.nil_sublist _
    | some found =>
        exact (nodesOf_denotedBelow?_sublist hbelow).trans (nodesOf_children_sublist tree)

theorem mem_nodes_of_mem_selectTarget (h : node ∈ tree.selectTarget identifier) :
    node ∈ tree.nodes := by
  refine (nodesOf_selectTarget_sublist tree identifier).subset ?_
  rw [nodesOf_eq_flatMap]
  exact List.mem_flatMap.2 ⟨node, h, mem_nodes_self node⟩

/-! ## From the first target on -/

theorem head?_denoted (node : Node) (following : List Node) :
    (node.denoted following).head? = some node := by
  unfold denoted
  split
  · rfl
  · rfl

theorem map_head?_denotedBelow? (tree : Node) (identifier : String) :
    (tree.denotedBelow? identifier).map List.head? =
      ((nodesOf tree.children).find? (fun node => node.isTargetFor identifier)).map some := by
  induction tree using induction with
  | node attributes children ih =>
      rw [denotedBelow?]
      simp only
      induction children with
      | nil => simp [denotedAmong?, nodesOf]
      | cons first rest ihrest =>
          have hfirst := ih first List.mem_cons_self
          have hrest := ihrest (fun child hchild => ih child (List.mem_cons_of_mem first hchild))
          rw [denotedAmong?, nodesOf, nodes_eq_cons, ← nodesOf_eq_flatMap, List.cons_append,
            List.find?_cons, List.find?_append]
          cases htarget : first.isTargetFor identifier with
          | true => simp [head?_denoted]
          | false =>
              cases hbelow : first.denotedBelow? identifier with
              | none =>
                  rw [hbelow, Option.map_none, eq_comm, Option.map_eq_none_iff] at hfirst
                  simpa [hfirst] using hrest
              | some below =>
                  rw [hbelow, Option.map_some, eq_comm, Option.map_eq_some_iff] at hfirst
                  obtain ⟨node, hnode, hhead⟩ := hfirst
                  simp [hnode, ← hhead]

theorem denotedBelow?_eq_none_iff : tree.denotedBelow? identifier = none ↔
    ∀ child ∈ tree.children, ∀ node ∈ child.nodes, node.isTargetFor identifier = false := by
  have hhead := map_head?_denotedBelow? tree identifier
  rw [← Option.map_eq_none_iff (f := List.head?), hhead, Option.map_eq_none_iff,
    List.find?_eq_none, nodesOf_eq_flatMap]
  simp only [List.mem_flatMap, Bool.not_eq_true]
  exact ⟨fun h child hchild node hnode => h node ⟨child, hchild, hnode⟩,
    fun h node ⟨child, hchild, hnode⟩ => h child hchild node hnode⟩

/-- What an identifier denotes starts with the first target for it in document order. -/
theorem head?_selectTarget (tree : Node) (identifier : String) :
    (tree.selectTarget identifier).head? =
      tree.nodes.find? (fun node => node.isTargetFor identifier) := by
  have hbelow := map_head?_denotedBelow? tree identifier
  rw [nodes_eq_cons, ← nodesOf_eq_flatMap, List.find?_cons]
  unfold selectTarget
  cases htarget : tree.isTargetFor identifier with
  | true => simp
  | false =>
      cases hfound : tree.denotedBelow? identifier with
      | none =>
          rw [hfound, Option.map_none, eq_comm, Option.map_eq_none_iff] at hbelow
          simp [hbelow]
      | some found =>
          rw [hfound, Option.map_some, eq_comm, Option.map_eq_some_iff] at hbelow
          obtain ⟨node, hnode, hhead⟩ := hbelow
          simp [hnode, ← hhead]

theorem selectTarget_eq_nil_iff : tree.selectTarget identifier = [] ↔
    ∀ node ∈ tree.nodes, node.isTargetFor identifier = false := by
  rw [← List.head?_eq_none_iff, head?_selectTarget, List.find?_eq_none]
  simp only [Bool.not_eq_true]

end CrossDoc.Node
