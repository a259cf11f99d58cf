import CrossDoc.Proofs.Embed.Splice
import CrossDoc.Proofs.Embed.Trace
import CrossDoc.Proofs.Node.Order

/-!
# Where the nodes without a mark go

When marked nodes are replaced by their children, a node without a mark goes to another place,
which is told from the marks above it and from what is left of the nodes before it (`landing`). It
stands there with what is left of its children (`at?_landing`), the nodes follow each other as
before (`paths_liftElided`), and each is a child of the nearest of them that it was below
(`exists_nearest`, `exists_landing_concat`).

The pass that replaces the nodes counts them one by one as it goes (`replaceElided`), and comes to
the number of marked nodes below the root (`replaceElided_eq`).
-/

namespace CrossDoc.Node

/-! ## The pass as it goes -/

mutual
/-- Replaces every marked node below the root by its children, and counts the nodes replaced. -/
def replaceElided (node : Node) : Node × Nat :=
  match node with
  | ⟨attributes, children⟩ =>
    let (kept, removed) := replaceOnto [] 0 children
    (⟨attributes, kept⟩, removed)

def replaceOnto (kept : List Node) (removed : Nat) (siblings : List Node) : List Node × Nat :=
  match siblings with
  | [] => (kept, removed)
  | node :: rest =>
    let (lifted, below) := node.replaceElided
    if lifted.isElided then replaceOnto (kept ++ lifted.children) (removed + below + 1) rest
    else replaceOnto (kept ++ [lifted]) (removed + below) rest
end

variable {tree node child : Node} {siblings : List Node} {path : Path} {place : Nat}

theorem countP_nodes_eq (tree : Node) :
    tree.nodes.countP isElided = tree.elidedBelow + if tree.isElided then 1 else 0 := by
  rw [nodes_eq_cons, List.countP_cons, elidedBelow, nodesOf_eq_flatMap]

theorem replaceOnto_eq
    (h : ∀ node ∈ siblings, node.replaceElided = (node.liftElided, node.elidedBelow))
    (kept : List Node) (removed : Nat) : replaceOnto kept removed siblings =
      (kept ++ liftAll siblings, removed + (nodesOf siblings).countP isElided) := by
  induction siblings generalizing kept removed with
  | nil => simp [replaceOnto, liftAll, nodesOf]
  | cons node rest ih =>
      have hrest := ih (fun other hmem => h other (List.mem_cons_of_mem node hmem))
      rw [replaceOnto, h node List.mem_cons_self, liftAll, nodesOf, List.countP_append,
        countP_nodes_eq]
      cases hmark : node.isElided with
      | true =>
          simp only [isElided_liftElided, hmark, if_true, hrest, List.append_assoc]
          rw [Nat.add_assoc, Nat.add_assoc, Nat.add_assoc]
      | false =>
          simp only [isElided_liftElided, hmark, Bool.false_eq_true, if_false, hrest,
            List.append_assoc, List.singleton_append]
          rw [Nat.add_assoc, Nat.add_zero]

theorem replaceElided_eq (tree : Node) :
    tree.replaceElided = (tree.liftElided, tree.elidedBelow) := by
  induction tree using induction with
  | node attributes children ih =>
      rw [replaceElided, replaceOnto_eq ih, liftElided, elidedBelow, List.nil_append,
        Nat.zero_add]

theorem elidedBelow_of_unmarkedBelow (h : tree.UnmarkedBelow) : tree.elidedBelow = 0 := by
  rw [elidedBelow, List.countP_eq_zero, nodesOf_eq_flatMap]
  intro found hfound
  obtain ⟨child, hchild, hfound⟩ := List.mem_flatMap.1 hfound
  simp [isElided, h child hchild found hfound]

/-! ## Where a node goes -/

/-- Whether the node that a path leads to is not replaced: it is the root, or it has no mark. -/
def remains (tree : Node) (path : Path) : Bool :=
  path.isEmpty || (tree.at? path).any (fun node => !node.isElided)

/-- Where the node that a path leads to goes. A node that is replaced goes where its parent goes. -/
def landing (tree : Node) : Path → Path
  | [] => []
  | place :: path =>
    match tree.children[place]? with
    | none => []
    | some child =>
      let below := child.landing path
      shift (liftAll (tree.children.take place)).length
        (if child.isElided then below else 0 :: below)

@[simp] theorem remains_nil (tree : Node) : tree.remains [] = true := rfl

theorem remains_cons_iff (hchild : tree.children[place]? = some child) :
    tree.remains (place :: path) = true ↔
      child.remains path = true ∧ (path = [] → child.isElided = false) := by
  cases path with
  | nil => simp [remains, at?_cons, hchild]
  | cons next rest => simp [remains, at?_cons, hchild]

theorem landing_cons (hchild : tree.children[place]? = some child) (path : Path) :
    tree.landing (place :: path) = shift (liftAll (tree.children.take place)).length
      (if child.isElided then child.landing path else 0 :: child.landing path) := by
  rw [landing, hchild]

theorem exists_shift_concat (offset place : Nat) (path : Path) :
    ∃ last, shift offset (path ++ [place]) = shift offset path ++ [last] := by
  cases path with
  | nil => exact ⟨offset + place, rfl⟩
  | cons first rest => exact ⟨place, rfl⟩

/-- A node without a mark goes below the place where its parent goes, and not further down. -/
theorem exists_landing_concat (hnode : tree.at? (path ++ [place]) = some node)
    (hremains : tree.remains (path ++ [place]) = true) :
    ∃ last, tree.landing (path ++ [place]) = tree.landing path ++ [last] := by
  induction path generalizing tree with
  | nil =>
      obtain ⟨child, hchild, -⟩ := at?_cons_eq_some_iff.1 hnode
      have hkeep := ((remains_cons_iff hchild).1 hremains).2 rfl
      rw [List.nil_append, landing_cons hchild, hkeep]
      exact ⟨_, rfl⟩
  | cons first rest ih =>
      obtain ⟨child, hchild, hrest⟩ := at?_cons_eq_some_iff.1 hnode
      obtain ⟨last, hlast⟩ := ih hrest ((remains_cons_iff hchild).1 hremains).1
      rw [List.cons_append, landing_cons hchild, landing_cons hchild, hlast]
      cases child.isElided with
      | true => exact exists_shift_concat _ last (child.landing rest)
      | false => exact exists_shift_concat _ last (0 :: child.landing rest)

theorem landing_ne_nil (hnode : tree.at? path = some node) (hremains : tree.remains path = true)
    (hpath : path ≠ []) : tree.landing path ≠ [] := by
  obtain ⟨init, place, rfl⟩ := (List.eq_nil_or_concat path).resolve_left hpath
  rw [List.concat_eq_append] at *
  obtain ⟨last, hlast⟩ := exists_landing_concat hnode hremains
  rw [hlast]
  exact List.append_ne_nil_of_right_ne_nil _ (List.cons_ne_nil _ _)

theorem liftAll_append (trees others : List Node) :
    liftAll (trees ++ others) = liftAll trees ++ liftAll others := by
  simp only [liftAll_eq_flatMap, List.flatMap_append]

theorem at?_landing (hnode : tree.at? path = some node) (hremains : tree.remains path = true) :
    tree.liftElided.at? (tree.landing path) = some node.liftElided := by
  induction path generalizing tree with
  | nil =>
      obtain rfl := Option.some.inj hnode
      rfl
  | cons place rest ih =>
      obtain ⟨child, hchild, hrest⟩ := at?_cons_eq_some_iff.1 hnode
      obtain ⟨hbelow, hmark⟩ := (remains_cons_iff hchild).1 hremains
      have hat := ih hrest hbelow
      have hsplit := congrArg liftAll (take_append_cons_drop hchild)
      rw [liftAll_append, liftAll_cons] at hsplit
      rw [landing_cons hchild, liftElided_eq tree, ← hsplit]
      cases helided : child.isElided with
      | true =>
          have hne : rest ≠ [] := fun hnil => by simp [hmark hnil] at helided
          rw [liftElided_eq child] at hat
          rw [remnant_of_elided helided]
          exact at?_shift (landing_ne_nil hrest hbelow hne) hat
      | false =>
          have hself : (Node.of child.toAttributes [child.liftElided]).at?
              (0 :: child.landing rest) = some node.liftElided := hat
          rw [remnant_of_keep helided]
          exact at?_shift (List.cons_ne_nil _ _) hself

/-! ## Parents -/

/-- The last node on a path that is not replaced. -/
structure IsNearest (tree : Node) (path nearest : Path) : Prop where
  on : nearest <+: path
  remains : tree.remains nearest = true
  last : ∀ other, other <+: path → tree.remains other = true → other <+: nearest

theorem isNearest_nil (tree : Node) : tree.IsNearest [] [] :=
  ⟨List.prefix_rfl, rfl, fun _ hother _ => hother⟩

theorem isNearest_cons {nearest : Path} (hchild : tree.children[place]? = some child)
    (h : child.IsNearest path nearest) (hmark : nearest = [] → child.isElided = false) :
    tree.IsNearest (place :: path) (place :: nearest) where
  on := (List.prefix_cons_inj place).2 h.on
  remains := (remains_cons_iff hchild).2 ⟨h.remains, hmark⟩
  last other hother hremains := by
    cases other with
    | nil => exact List.nil_prefix
    | cons first rest =>
        obtain ⟨rfl, hrest⟩ := List.cons_prefix_cons.1 hother
        exact (List.prefix_cons_inj first).2
          (h.last rest hrest ((remains_cons_iff hchild).1 hremains).1)

theorem isNearest_cons_nil (hchild : tree.children[place]? = some child)
    (h : child.IsNearest path []) (hmark : child.isElided = true) :
    tree.IsNearest (place :: path) [] where
  on := List.nil_prefix
  remains := rfl
  last other hother hremains := by
    cases other with
    | nil => exact List.nil_prefix
    | cons first rest =>
        obtain ⟨rfl, hrest⟩ := List.cons_prefix_cons.1 hother
        obtain ⟨hbelow, hkeep⟩ := (remains_cons_iff hchild).1 hremains
        have hnil := List.prefix_nil.1 (h.last rest hrest hbelow)
        simp [hkeep hnil] at hmark

theorem exists_nearest (hnode : tree.at? path = some node) :
    ∃ nearest, tree.IsNearest path nearest ∧ tree.landing path = tree.landing nearest := by
  induction path generalizing tree with
  | nil => exact ⟨[], isNearest_nil tree, rfl⟩
  | cons place rest ih =>
      obtain ⟨child, hchild, hrest⟩ := at?_cons_eq_some_iff.1 hnode
      obtain ⟨nearest, hnearest, hsame⟩ := ih hrest
      -- the child is the root of its own tree and stays there, but here it may be replaced
      by_cases hreplaced : nearest = [] ∧ child.isElided = true
      · obtain ⟨rfl, hmark⟩ := hreplaced
        refine ⟨[], isNearest_cons_nil hchild hnearest hmark, ?_⟩
        rw [landing_cons hchild, if_pos hmark, hsame]
        rfl
      · refine ⟨place :: nearest, isNearest_cons hchild hnearest (by simpa using hreplaced), ?_⟩
        rw [landing_cons hchild, landing_cons hchild, hsame]

/-! ## Order -/

theorem map_shift_pathsFrom (offset place : Nat) (siblings : List Node) :
    (pathsFrom place siblings).map (shift offset) = pathsFrom (offset + place) siblings := by
  induction siblings generalizing place with
  | nil => simp [pathsFrom]
  | cons node rest ih =>
      rw [pathsFrom, pathsFrom, List.map_append, List.map_map, ih, Nat.add_assoc]
      rfl

theorem pathsFrom_append (place : Nat) (siblings others : List Node) :
    pathsFrom place (siblings ++ others) =
      pathsFrom place siblings ++ pathsFrom (place + siblings.length) others := by
  induction siblings generalizing place with
  | nil => simp [pathsFrom]
  | cons node rest ih =>
      rw [List.cons_append, pathsFrom, pathsFrom, ih, List.append_assoc, List.length_cons,
        Nat.add_right_comm, Nat.add_assoc]

theorem filter_remains_of_elided (hchild : tree.children[place]? = some child)
    (hmark : child.isElided = true) :
    child.paths.filter (fun path => tree.remains (place :: path)) =
      (pathsFrom 0 child.children).filter child.remains := by
  have hself : tree.remains [place] = false := by
    rw [← Bool.not_eq_true, remains_cons_iff hchild]
    simp [hmark]
  rw [paths_eq_cons, List.filter_cons_of_neg (by simp [hself])]
  refine List.filter_congr (fun path hpath => ?_)
  obtain ⟨first, rest, rfl, -⟩ := exists_cons_of_mem_pathsFrom hpath
  rw [Bool.eq_iff_iff, remains_cons_iff hchild]
  simp

theorem filter_remains_of_keep (hchild : tree.children[place]? = some child)
    (hmark : child.isElided = false) :
    child.paths.filter (fun path => tree.remains (place :: path)) =
      child.paths.filter child.remains := by
  refine List.filter_congr (fun path _ => ?_)
  rw [Bool.eq_iff_iff, remains_cons_iff hchild]
  simp [hmark]

private theorem pathsFrom_remnant (hchild : tree.children[place]? = some child)
    (h : child.liftElided.paths = (child.paths.filter child.remains).map child.landing) :
    pathsFrom (liftAll (tree.children.take place)).length child.remnant =
      ((child.paths.map (place :: ·)).filter tree.remains).map tree.landing := by
  rw [List.filter_map, List.map_map, Function.comp_def, Function.comp_def]
  simp only [landing_cons hchild]
  cases hmark : child.isElided with
  | true =>
      rw [filter_remains_of_elided hchild hmark, remnant_of_elided hmark]
      rw [paths_eq_cons, paths_eq_cons child, List.filter_cons_of_pos rfl, List.map_cons,
        liftElided_eq] at h
      have hbelow : pathsFrom 0 (liftAll child.children) =
          ((pathsFrom 0 child.children).filter child.remains).map child.landing :=
        (List.cons.inj h).2
      have hshift := map_shift_pathsFrom (liftAll (tree.children.take place)).length 0
        (liftAll child.children)
      rw [hbelow, List.map_map] at hshift
      exact hshift.symm
  | false =>
      rw [filter_remains_of_keep hchild hmark, remnant_of_keep hmark]
      simp only [Bool.false_eq_true, if_false, pathsFrom, List.append_nil]
      rw [h, List.map_map]
      rfl

private theorem pathsFrom_liftAll {attributes : Attributes} {siblings : List Node}
    (h : ∀ node ∈ siblings,
      node.liftElided.paths = (node.paths.filter node.remains).map node.landing)
    (before : List Node) :
    pathsFrom (liftAll before).length (liftAll siblings) =
      ((pathsFrom before.length siblings).filter
        (Node.mk attributes (before ++ siblings)).remains).map
          (Node.mk attributes (before ++ siblings)).landing := by
  induction siblings generalizing before with
  | nil => simp [liftAll, pathsFrom]
  | cons node rest ih =>
      have hplace : (Node.mk attributes (before ++ node :: rest)).children[before.length]? =
          some node := by
        simp
      have hnode := pathsFrom_remnant hplace (h node List.mem_cons_self)
      have hrest := ih (fun other hmem => h other (List.mem_cons_of_mem node hmem))
        (before ++ [node])
      rw [List.append_assoc, List.singleton_append, liftAll_append, liftAll_cons, liftAll,
        List.append_nil, List.length_append, List.length_append, List.length_singleton] at hrest
      rw [List.take_left] at hnode
      rw [liftAll_cons, pathsFrom_append, pathsFrom, List.filter_append, List.map_append, hnode,
        hrest]

/-- The nodes that are left follow each other as before. -/
theorem paths_liftElided (tree : Node) :
    tree.liftElided.paths = (tree.paths.filter tree.remains).map tree.landing := by
  induction tree using induction with
  | node attributes children ih =>
      rw [paths_eq_cons, paths_eq_cons ⟨attributes, children⟩, List.filter_cons_of_pos rfl,
        List.map_cons, liftElided]
      exact congrArg _ (pathsFrom_liftAll ih [])

/-! ## The whole pass -/

/--
What is left of a tree: its nodes without a mark and its root, in the order of a walk, each with its
attributes, and each as a child of the nearest of them that it was below.
-/
structure IsRemainder (tree left : Node) : Prop where
  unmarked : left.UnmarkedBelow
  ordered : left.paths = (tree.paths.filter tree.remains).map tree.landing
  kept : ∀ path node, tree.at? path = some node → tree.remains path = true →
    ∃ found, left.at? (tree.landing path) = some found ∧ found.toAttributes = node.toAttributes
  parents : ∀ path node, tree.at? path = some node → tree.remains path = true → path ≠ [] →
    ∃ parent last, tree.IsNearest path.dropLast parent ∧
      tree.landing path = tree.landing parent ++ [last]

theorem isRemainder_liftElided (tree : Node) : IsRemainder tree tree.liftElided where
  unmarked := unmarkedBelow_liftElided tree
  ordered := paths_liftElided tree
  kept _ node hnode hremains :=
    ⟨node.liftElided, at?_landing hnode hremains, toAttributes_liftElided node⟩
  parents path node hnode hremains hne := by
    obtain ⟨above, place, rfl⟩ := (List.eq_nil_or_concat path).resolve_left hne
    rw [List.concat_eq_append] at *
    obtain ⟨last, hlast⟩ := exists_landing_concat hnode hremains
    have hsplit := at?_append tree above [place]
    rw [hnode] at hsplit
    obtain ⟨parent, hparent, -⟩ := Option.bind_eq_some_iff.1 hsplit.symm
    obtain ⟨nearest, hnearest, hsame⟩ := exists_nearest hparent
    exact ⟨nearest, last, by rwa [List.dropLast_concat], hsame ▸ hlast⟩

/--
Replacing the marked nodes below the root of a tree leaves just the other nodes, in document order
and with the attributes they had, each below the nearest of them that it was below. As many are
counted as were marked, and a second pass finds nothing to replace.
-/
theorem replaceElided_leaves_unmarked (tree : Node) :
    tree.replaceElided = (tree.liftElided, tree.elidedBelow) ∧
      IsRemainder tree tree.liftElided ∧
      tree.liftElided.replaceElided = (tree.liftElided, 0) := by
  have hunmarked := unmarkedBelow_liftElided tree
  refine ⟨replaceElided_eq tree, isRemainder_liftElided tree, ?_⟩
  rw [replaceElided_eq, liftElided_of_unmarkedBelow hunmarked,
    elidedBelow_of_unmarkedBelow hunmarked]

/-- A marked root, and in it a marked node around another one. -/
example :
    let wrapper (children : List Node) : Node := { disposition := .elide, children }
    let result := (wrapper [.text "a", wrapper [.text "b", wrapper [.text "c"]],
      .text "d"]).replaceElided
    result.2 = 2 ∧ result.1.children.map (·.value) = [some "a", some "b", some "c", some "d"] := by
  decide +kernel

end CrossDoc.Node
