import CrossDoc.Proofs.Node.Changes

/-!
# Changes at collected paths

A pass that changes some nodes first collects the paths to them, and then follows one path after
another and changes what it leads to. What is collected are the outermost nodes with a property
(`ListsOutermost`), so no change moves or hides a node that is still to be changed, and the order
of the changes does not matter (`changeEach_of_perm_collectPaths`).
-/

namespace CrossDoc.Node

/-- Paths to the outermost nodes with a property, to all of them and in document order. -/
structure ListsOutermost (p : Node → Bool) (tree : Node) (paths : List Path) : Prop where
  ordered : paths.Sublist tree.paths
  apart : paths.Pairwise Path.Apart
  outermost : ∀ path ∈ paths, IsOutermost p tree path
  covered : ∀ path node, tree.at? path = some node → p node = true →
    ∃ before ∈ paths, before <+: path

def changeEach (f : Path → Node → Node) (paths : List Path) (tree : Node) : Node :=
  modifyAll (paths.map (fun path => (path, f path))) tree

/--
One tree comes from another one by changes at paths: each of the paths leads to the node that it led
to, changed, and what is neither there nor below has the attributes and the number of children that
it had.
-/
structure ChangedAt (f : Path → Node → Node) (paths : List Path) (tree result : Node) : Prop where
  changed : ∀ path ∈ paths, ∃ node, tree.at? path = some node ∧
    result.at? path = some (f path node)
  kept : ∀ path, (∀ other ∈ paths, ¬ other <+: path) →
    (result.at? path).map surface = (tree.at? path).map surface

variable {p : Node → Bool} {f : Path → Node → Node} {tree : Node} {order paths done : List Path}
  {path : Path}

theorem listsOutermost_collectPaths (p : Node → Bool) (tree : Node) :
    ListsOutermost p tree (tree.collectPaths p) where
  ordered := collectPaths_sublist_paths p tree
  apart := pairwise_apart_collectPaths p tree
  outermost _ hpath := mem_collectPaths_iff.1 hpath
  covered _ _ hnode hp := by
    obtain ⟨before, habove, hbefore⟩ := exists_mem_collectPaths_of_at? hnode hp
    exact ⟨before, hbefore, habove⟩

/-! ## Changes at paths apart -/

theorem map_fst_changes (f : Path → Node → Node) (paths : List Path) :
    (paths.map (fun path => (path, f path))).map (·.1) = paths := by
  rw [List.map_map]
  exact List.map_id paths

theorem at?_changeEach_of_apart (h : ∀ other ∈ done, Path.Apart other path) :
    (changeEach f done tree).at? path = tree.at? path :=
  at?_modifyAll_of_apart (List.forall_mem_map.2 h)

theorem at?_changeEach_of_mem (hapart : paths.Pairwise Path.Apart) (hpath : path ∈ paths) :
    (changeEach f paths tree).at? path = (tree.at? path).map (f path) := by
  refine at?_modifyAll_of_mem ?_ (List.mem_map.2 ⟨path, hpath, rfl⟩)
  rwa [map_fst_changes]

theorem changeEach_perm (f : Path → Node → Node) (tree : Node) (hperm : order.Perm paths)
    (hapart : order.Pairwise Path.Apart) : changeEach f order tree = changeEach f paths tree := by
  refine modifyAll_perm (hperm.map _) ?_
  rwa [map_fst_changes]

theorem changedAt_changeEach (hapart : paths.Pairwise Path.Apart)
    (hleads : ∀ path ∈ paths, ∃ node, tree.at? path = some node) :
    ChangedAt f paths tree (changeEach f paths tree) where
  changed path hpath := by
    obtain ⟨node, hnode⟩ := hleads path hpath
    exact ⟨node, hnode, by rw [at?_changeEach_of_mem hapart hpath, hnode, Option.map_some]⟩
  kept path hclear := by
    refine surface_at?_modifyAll (fun change hchange => ?_)
    obtain ⟨other, hother, rfl⟩ := List.mem_map.1 hchange
    exact hclear other hother

/-! ## Changes at collected paths -/

/--
The paths that are collected are those of the outermost nodes with the property, in the order of a
walk. Whatever is done to the nodes that they lead to, and in whatever order, each path still leads
to its own node when its turn comes, the tree at the end is the same, and each node in it is changed
in its own way and nothing else is.
-/
theorem changeEach_of_perm_collectPaths (p : Node → Bool) (f : Path → Node → Node) (tree : Node)
    (horder : order.Perm (tree.collectPaths p)) :
    tree.paths.map tree.at? = tree.nodes.map some ∧
      ListsOutermost p tree (tree.collectPaths p) ∧
      (∀ done path rest, order = done ++ path :: rest →
        (changeEach f done tree).at? path = tree.at? path) ∧
      changeEach f order tree = changeEach f (tree.collectPaths p) tree ∧
      ChangedAt f (tree.collectPaths p) tree (changeEach f order tree) := by
  have hlists := listsOutermost_collectPaths p tree
  have hapart : order.Pairwise Path.Apart := hlists.apart.perm horder.symm And.symm
  have hsame := changeEach_perm f tree horder hapart
  refine ⟨map_at?_paths tree, hlists, ?_, hsame, ?_⟩
  · rintro done path rest rfl
    have hbefore := (List.pairwise_append.1 hapart).2.2
    exact at?_changeEach_of_apart (fun other hother => hbefore other hother path List.mem_cons_self)
  · rw [hsame]
    refine changedAt_changeEach hlists.apart (fun path hpath => ?_)
    obtain ⟨⟨node, hnode, -⟩, -⟩ := hlists.outermost path hpath
    exact ⟨node, hnode⟩

def nestedEmbeds : Node :=
  .ofType NodeType.root
    [.ofType NodeType.embed [.ofType NodeType.embed []],
      .ofType NodeType.block [.text "between", .ofType NodeType.embed []]]

/-- Both embeds are filled with more embeds, the later one first. -/
theorem nestedEmbeds_filled :
    let isEmbed (node : Node) : Bool := node.is NodeType.embed
    let fill (path : Path) (node : Node) : Node :=
      { node with children := [.text (toString path), .ofType NodeType.embed []] }
    [[1, 1], [0]].Perm (nestedEmbeds.collectPaths isEmbed) ∧
      changeEach fill [[1, 1], [0]] nestedEmbeds = changeEach fill [[0], [1, 1]] nestedEmbeds ∧
      ∃ node, nestedEmbeds.at? [0] = some node ∧
        (changeEach fill [[1, 1], [0]] nestedEmbeds).at? [0] = some (fill [0] node) := by
  intro isEmbed fill
  have hpaths : nestedEmbeds.collectPaths isEmbed = [[0], [1, 1]] := by decide +kernel
  have horder : [[1, 1], [0]].Perm (nestedEmbeds.collectPaths isEmbed) :=
    hpaths ▸ List.Perm.swap [0] [1, 1] []
  obtain ⟨-, -, -, hsame, hchanged⟩ :=
    changeEach_of_perm_collectPaths isEmbed fill nestedEmbeds horder
  rw [hpaths] at hsame hchanged
  exact ⟨horder, hsame, hchanged.changed [0] List.mem_cons_self⟩

end CrossDoc.Node
