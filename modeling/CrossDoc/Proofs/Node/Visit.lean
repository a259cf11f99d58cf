import CrossDoc.Proofs.Node.Walk

/-!
# Passes that change a tree in place

A pass takes a state from node to node in document order. It visits a node first, which may change
the node and the state, and then goes on into the children that the visit left there (`Walks`). So
what a visit writes into a node is walked through as well. Such a pass has one outcome
(`Walks.unique`), and where a visit keeps the children of a node or writes only what later visits
leave alone, the outcome is told node by node (`walks_of_visit`).
-/

namespace CrossDoc.Node

variable {σ : Type} {visit : Node → σ → Node × σ}

/-- A walk through a list of trees, from a state to a state, and the trees that it leaves. -/
inductive Walks (visit : Node → σ → Node × σ) : List Node → σ → List Node → σ → Prop
  | nil (state : σ) : Walks visit [] state [] state
  | cons {tree visited : Node} {rest children others : List Node} {start entered left final : σ}
      (hvisit : visit tree start = (visited, entered))
      (hchildren : Walks visit visited.children entered children left)
      (hrest : Walks visit rest left others final) :
      Walks visit (tree :: rest) start (⟨visited.toAttributes, children⟩ :: others) final

namespace Walks

variable {trees others result result' : List Node} {start middle final final' : σ}

theorem unique (h : Walks visit trees start result final)
    (h' : Walks visit trees start result' final') : result = result' ∧ final = final' := by
  induction h generalizing result' final' with
  | nil state =>
      cases h'
      exact ⟨rfl, rfl⟩
  | cons hvisit _ _ ihchildren ihrest =>
      cases h' with
      | cons hvisit' hchildren' hrest' =>
          obtain ⟨rfl, rfl⟩ := Prod.mk.inj (hvisit.symm.trans hvisit')
          obtain ⟨rfl, rfl⟩ := ihchildren hchildren'
          obtain ⟨rfl, rfl⟩ := ihrest hrest'
          exact ⟨rfl, rfl⟩

theorem iff (h : Walks visit trees start result final) :
    Walks visit trees start result' final' ↔ result' = result ∧ final' = final := by
  constructor
  · intro h'
    exact h'.unique h
  · rintro ⟨rfl, rfl⟩
    exact h

theorem append (h : Walks visit trees start result middle)
    (h' : Walks visit others middle result' final) :
    Walks visit (trees ++ others) start (result ++ result') final := by
  induction h with
  | nil state => exact h'
  | cons hvisit hchildren _ _ ihrest => exact .cons hvisit hchildren (ihrest h')

end Walks

/-! ## Passes told node by node -/

variable {pass : Node → Node} {record : Node → σ → σ}

private theorem walks_map {trees : List Node}
    (h : ∀ tree ∈ trees, ∀ state, Walks visit [tree] state [pass tree]
      (tree.nodes.foldl (fun state node => record node state) state)) (state : σ) :
    Walks visit trees state (trees.map pass)
      ((trees.flatMap nodes).foldl (fun state node => record node state) state) := by
  induction trees generalizing state with
  | nil => exact .nil state
  | cons tree rest ih =>
      rw [List.flatMap_cons, List.foldl_append]
      have hrest := ih (fun other hmem => h other (List.mem_cons_of_mem tree hmem))
      exact (h tree List.mem_cons_self state).append (hrest _)

/--
A walk whose visits keep the children of a node that has some, and may give other nodes children
which the rest of the walk leaves as they are. The state takes up one node after another.
-/
theorem walks_of_visit
    (hvisit : ∀ node state, (visit node state).1.toAttributes = (pass node).toAttributes ∧
      (visit node state).2 = record node state)
    (hleaf : ∀ node state, node.children = [] → ∀ left,
      Walks visit (visit node state).1.children left (pass node).children left)
    (hinner : ∀ node state, node.children ≠ [] →
      (visit node state).1.children = node.children ∧
        (pass node).children = node.children.map pass)
    (tree : Node) (state : σ) :
    Walks visit [tree] state [pass tree]
      (tree.nodes.foldl (fun state node => record node state) state) := by
  induction tree using induction generalizing state with
  | node attributes children ih =>
      obtain ⟨hattributes, hstate⟩ := hvisit ⟨attributes, children⟩ state
      rw [nodes_eq_cons, List.foldl_cons, ← hstate]
      have hpass : pass ⟨attributes, children⟩ =
          ⟨(visit ⟨attributes, children⟩ state).1.toAttributes,
            (pass ⟨attributes, children⟩).children⟩ := by
        rw [hattributes]
        cases pass ⟨attributes, children⟩
        rfl
      rw [hpass]
      refine .cons rfl ?_ (.nil _)
      by_cases hchildren : children = []
      · subst hchildren
        exact hleaf _ state rfl _
      · obtain ⟨hkept, hmap⟩ := hinner ⟨attributes, children⟩ state hchildren
        rw [hkept, hmap]
        exact walks_map ih _

theorem walks_mapAttributes {f : Attributes → Attributes}
    (hvisit : ∀ node state, visit node state = (⟨f node.toAttributes, node.children⟩,
      record node state)) (tree : Node) (state : σ) :
    Walks visit [tree] state [tree.mapAttributes f]
      (tree.nodes.foldl (fun state node => record node state) state) := by
  refine walks_of_visit (fun node state => ?_) (fun node state hleaf left => ?_)
    (fun node state _ => ?_) tree state
  · rw [hvisit, toAttributes_mapAttributes]
    exact ⟨rfl, rfl⟩
  · rw [hvisit, children_mapAttributes, hleaf]
    exact .nil left
  · rw [hvisit, children_mapAttributes]
    exact ⟨rfl, rfl⟩

end CrossDoc.Node
