import CrossDoc.Proofs.Node.Path

/-!
# Paths in document order

The paths into a tree, in the order in which a walk meets the nodes that they lead to
(`map_at?_paths`). They are in lexicographic order (`pairwise_paths`), and those that are collected
are some of them in the same order (`collectPaths_sublist_paths`).
-/

namespace CrossDoc.Node

mutual
/-- The paths to the nodes of a tree, in document order. -/
def paths (node : Node) : List Path :=
  match node with
  | ⟨_, children⟩ => [] :: pathsFrom 0 children

def pathsFrom (place : Nat) (siblings : List Node) : List Path :=
  match siblings with
  | [] => []
  | node :: rest => node.paths.map (place :: ·) ++ pathsFrom (place + 1) rest
end

variable {p : Node → Bool}

theorem paths_eq_cons (tree : Node) : tree.paths = [] :: pathsFrom 0 tree.children := by
  cases tree
  rw [paths]

theorem exists_cons_of_mem_pathsFrom {place : Nat} {siblings : List Node} {path : Path}
    (h : path ∈ pathsFrom place siblings) : ∃ first rest, path = first :: rest ∧ place ≤ first := by
  induction siblings generalizing place with
  | nil => simp [pathsFrom] at h
  | cons node others ih =>
      rw [pathsFrom, List.mem_append, List.mem_map] at h
      rcases h with ⟨rest, -, rfl⟩ | hlater
      · exact ⟨place, rest, rfl, Nat.le_refl place⟩
      · obtain ⟨first, rest, rfl, hle⟩ := ih hlater
        exact ⟨first, rest, rfl, by omega⟩

/-! ## The order of a walk -/

private theorem map_at?_pathsFrom {attributes : Attributes} {siblings : List Node}
    (h : ∀ node ∈ siblings, node.paths.map node.at? = node.nodes.map some) (before : List Node) :
    (pathsFrom before.length siblings).map (Node.mk attributes (before ++ siblings)).at? =
      (siblings.flatMap nodes).map some := by
  induction siblings generalizing before with
  | nil => simp [pathsFrom]
  | cons node rest ih =>
      have hnode : (node.paths.map (before.length :: ·)).map
          (Node.mk attributes (before ++ node :: rest)).at? = node.nodes.map some := by
        rw [List.map_map, ← h node List.mem_cons_self]
        refine List.map_congr_left (fun path _ => ?_)
        rw [Function.comp, at?_cons, List.getElem?_append_right (Nat.le_refl _), Nat.sub_self]
        rfl
      have hrest := ih (fun other hmem => h other (List.mem_cons_of_mem node hmem))
        (before ++ [node])
      rw [List.append_assoc, List.singleton_append, List.length_append] at hrest
      rw [pathsFrom, List.map_append, hnode, List.flatMap_cons, List.map_append]
      exact congrArg _ hrest

theorem map_at?_paths (tree : Node) : tree.paths.map tree.at? = tree.nodes.map some := by
  induction tree using induction with
  | node attributes children ih =>
      rw [paths_eq_cons, nodes_eq_cons, List.map_cons, List.map_cons, at?_nil]
      exact congrArg _ (map_at?_pathsFrom ih [])

private theorem pairwise_pathsFrom {siblings : List Node}
    (h : ∀ node ∈ siblings, node.paths.Pairwise (· < ·)) (place : Nat) :
    (pathsFrom place siblings).Pairwise (· < ·) := by
  induction siblings generalizing place with
  | nil => simp [pathsFrom]
  | cons node rest ih =>
      have hbelow : (node.paths.map (place :: ·)).Pairwise (· < ·) := by
        refine List.pairwise_map.2 ((h node List.mem_cons_self).imp ?_)
        exact fun hlt => List.cons_lt_cons_iff.2 (Or.inr ⟨rfl, hlt⟩)
      have hbeside := ih (fun other hmem => h other (List.mem_cons_of_mem node hmem)) (place + 1)
      rw [pathsFrom]
      refine List.pairwise_append.2 ⟨hbelow, hbeside, ?_⟩
      intro path hpath other hother
      obtain ⟨below, -, rfl⟩ := List.mem_map.1 hpath
      obtain ⟨first, rest', rfl, hle⟩ := exists_cons_of_mem_pathsFrom hother
      exact List.cons_lt_cons_iff.2 (Or.inl hle)

theorem pairwise_paths (tree : Node) : tree.paths.Pairwise (· < ·) := by
  induction tree using induction with
  | node attributes children ih =>
      rw [paths_eq_cons]
      refine List.pairwise_cons.2 ⟨fun path hpath => ?_, pairwise_pathsFrom ih 0⟩
      obtain ⟨first, rest, rfl, -⟩ := exists_cons_of_mem_pathsFrom hpath
      exact List.nil_lt_cons first rest

/-! ## Collected paths -/

private theorem collectPathsFrom_sublist_pathsFrom {siblings : List Node}
    (h : ∀ node ∈ siblings, (node.collectPaths p).Sublist node.paths) (place : Nat) :
    (collectPathsFrom p place siblings).Sublist (pathsFrom place siblings) := by
  induction siblings generalizing place with
  | nil => simp [collectPathsFrom]
  | cons node rest ih =>
      have hrest := ih (fun other hmem => h other (List.mem_cons_of_mem node hmem)) (place + 1)
      rw [collectPathsFrom, pathsFrom]
      exact ((h node List.mem_cons_self).map _).append hrest

theorem collectPaths_sublist_paths (p : Node → Bool) (tree : Node) :
    (tree.collectPaths p).Sublist tree.paths := by
  induction tree using induction with
  | node attributes children ih =>
      rw [paths_eq_cons]
      unfold collectPaths
      split
      · exact (List.nil_sublist _).cons_cons []
      · exact (collectPathsFrom_sublist_pathsFrom ih 0).cons []

/-- Paths are collected in document order. -/
theorem pairwise_collectPaths (p : Node → Bool) (tree : Node) :
    (tree.collectPaths p).Pairwise (· < ·) :=
  (pairwise_paths tree).sublist (collectPaths_sublist_paths p tree)

theorem nodup_collectPaths (p : Node → Bool) (tree : Node) : (tree.collectPaths p).Nodup := by
  refine (pairwise_collectPaths p tree).imp (fun {path other} hlt => ?_)
  rintro rfl
  exact List.lt_irrefl path hlt

end CrossDoc.Node
