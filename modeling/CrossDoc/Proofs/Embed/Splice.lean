import CrossDoc.Proofs.Embed.Lift
import CrossDoc.Proofs.Node.Lineage
import CrossDoc.Proofs.Node.Path

/-!
# Replacing marked nodes

The last pass of lifting replaces marked nodes by their children. It leaves a tree without marks
alone (`liftElided_of_unmarkedBelow`), and it leaves no marks (`unmarkedBelow_liftElided`). Where no
node on a path is marked, nor any node beside it, the path leads to the same place before and after
(`at?_liftElided`), and a change at that place may as well be made afterwards
(`liftElided_modifyAt`).

Whatever is marked, the nodes without a mark follow each other as before, each below the nearest of
them that it was below (`outline_liftElided`), and as many are gone as were marked below the root
(`elidedBelow_eq_countP`).
-/

namespace CrossDoc.Node

def Unmarked (node : Node) : Prop := ∀ found ∈ node.nodes, found.disposition = .keep

instance (node : Node) : Decidable node.Unmarked :=
  inferInstanceAs (Decidable (∀ found ∈ node.nodes, found.disposition = .keep))

def UnmarkedBelow (tree : Node) : Prop := ∀ child ∈ tree.children, child.Unmarked

/-- No node on a path below the root carries a mark, and none beside the path. -/
def UnmarkedAlong (tree : Node) : Path → Prop
  | [] => True
  | place :: path => (∀ child ∈ tree.children, child.disposition = .keep) ∧
      ∀ child, tree.children[place]? = some child → child.UnmarkedAlong path

variable {tree node : Node} {trees : List Node} {path other : Path} {f g : Node → Node}

theorem unmarked_iff : node.Unmarked ↔ node.disposition = .keep ∧ node.UnmarkedBelow :=
  forall_mem_nodes_iff

theorem UnmarkedBelow.along (h : tree.UnmarkedBelow) (path : Path) : tree.UnmarkedAlong path := by
  induction path generalizing tree with
  | nil => trivial
  | cons place rest ih =>
      exact ⟨fun child hchild => (unmarked_iff.1 (h child hchild)).1, fun child hchild =>
        ih (unmarked_iff.1 (h child (List.mem_of_getElem? hchild))).2⟩

/-! ## Nothing to replace -/

theorem liftAll_of_keep (h : ∀ tree ∈ trees, tree.disposition = .keep) :
    liftAll trees = trees.map liftElided := by
  rw [liftAll_eq_flatMap, ← List.flatMap_pure_eq_map]
  refine List.flatMap_congr (fun tree htree => remnant_of_keep ?_)
  simp [isElided, h tree htree]

theorem liftElided_of_unmarkedBelow (h : tree.UnmarkedBelow) : tree.liftElided = tree := by
  induction tree using Node.induction with
  | node attributes children ih =>
      rw [liftElided, liftAll_of_keep (fun child hchild => (unmarked_iff.1 (h child hchild)).1),
        List.map_congr_left (fun child hchild =>
          ih child hchild (unmarked_iff.1 (h child hchild)).2), List.map_id']

/-! ## No mark is left -/

theorem unmarked_of_mem_remnant (tree : Node) : ∀ left ∈ tree.remnant, left.Unmarked := by
  induction tree using Node.induction with
  | node attributes children ih =>
      have hbelow : ∀ left ∈ liftAll children, left.Unmarked := by
        intro left hleft
        rw [liftAll_eq_flatMap] at hleft
        obtain ⟨child, hchild, hleft⟩ := List.mem_flatMap.1 hleft
        exact ih child hchild left hleft
      intro left hleft
      cases hmark : attributes.disposition with
      | elide =>
          rw [remnant_of_elided (by simp [isElided, hmark])] at hleft
          exact hbelow left hleft
      | keep =>
          rw [remnant_of_keep (by simp [isElided, hmark]), liftElided] at hleft
          obtain rfl := List.mem_singleton.1 hleft
          exact unmarked_iff.2 ⟨hmark, hbelow⟩

theorem unmarkedBelow_liftElided (tree : Node) : tree.liftElided.UnmarkedBelow := by
  intro left hleft
  rw [liftElided_eq, liftAll_eq_flatMap] at hleft
  obtain ⟨child, -, hleft⟩ := List.mem_flatMap.1 hleft
  exact unmarked_of_mem_remnant child left hleft

/-! ## Along a path -/

theorem children_liftElided (h : ∀ child ∈ tree.children, child.disposition = .keep) :
    tree.liftElided.children = tree.children.map liftElided := by
  rw [liftElided_eq]
  exact liftAll_of_keep h

theorem at?_liftElided (h : tree.UnmarkedAlong path) :
    tree.liftElided.at? path = (tree.at? path).map liftElided := by
  induction path generalizing tree with
  | nil => rfl
  | cons place rest ih =>
      rw [at?_cons, at?_cons, children_liftElided h.1, List.getElem?_map]
      cases hchild : tree.children[place]? with
      | none => rfl
      | some child => exact ih (h.2 child hchild)

/-- A change at the end of a path without marks may as well be made afterwards. -/
theorem liftElided_modifyAt (hf : ∀ node, (f node).disposition = node.disposition)
    (hg : ∀ node, (f node).liftElided = g node.liftElided) (h : tree.UnmarkedAlong path) :
    (modifyAt f path tree).liftElided = modifyAt g path tree.liftElided := by
  induction path generalizing tree with
  | nil => exact hg tree
  | cons place rest ih =>
      have hkeep : ∀ child ∈ tree.children.modify place (modifyAt f rest),
          child.disposition = .keep :=
        forall_mem_modify h.1 (fun child hchild =>
          (field_modifyAt (·.disposition) hf rest child).trans hchild)
      have hchildren : (tree.children.modify place (modifyAt f rest)).map liftElided =
          (tree.children.map liftElided).modify place (modifyAt g rest) := by
        refine List.ext_getElem? (fun index => ?_)
        rw [List.getElem?_map, List.getElem?_modify, List.getElem?_modify, List.getElem?_map]
        cases hchild : tree.children[index]? with
        | none => rfl
        | some child =>
            by_cases hplace : place = index
            · subst hplace
              simpa using ih (h.2 child hchild)
            · simp [hplace]
      rw [modifyAt, liftElided, liftAll_of_keep hkeep, hchildren, modifyAt, toAttributes_liftElided,
        children_liftElided h.1]

theorem UnmarkedAlong.modifyAt (h : tree.UnmarkedAlong path)
    (hf : ∀ node, (f node).disposition = node.disposition)
    (hother : ¬ (other <+: path ∧ other ≠ path)) :
    (modifyAt f other tree).UnmarkedAlong path := by
  induction path generalizing tree other with
  | nil => trivial
  | cons place rest ih =>
      cases other with
      | nil => exact absurd ⟨List.nil_prefix, by simp⟩ hother
      | cons place' rest' =>
          refine ⟨forall_mem_modify h.1 (fun child hchild =>
            (field_modifyAt (·.disposition) hf rest' child).trans hchild), ?_⟩
          intro child hchild
          rw [children_modifyAt_cons] at hchild
          by_cases hplace : place' = place
          · subst hplace
            have hrest : ¬ (rest' <+: rest ∧ rest' ≠ rest) := by
              simpa [List.prefix_cons_inj] using hother
            rw [List.getElem?_modify_eq] at hchild
            obtain ⟨before, hbefore, rfl⟩ := Option.map_eq_some_iff.1 hchild
            exact ih (h.2 before hbefore) hrest
          · rw [List.getElem?_modify_ne _ _ hplace] at hchild
            exact h.2 child hchild

/-! ## What is left -/

/--
Whether a node outlasts the replacing of marked nodes, told from its attributes and those of the
nodes above it. A root does, marked or not.
-/
def isLeft : List Attributes → Bool
  | [] => false
  | [_] => true
  | attributes :: _ :: _ => attributes.disposition != .elide

def spliced : List Attributes → List Attributes
  | [] => []
  | attributes :: above =>
    if isLeft (attributes :: above) then attributes :: spliced above else spliced above

theorem chains_liftAll {trees : List Node}
    (h : ∀ tree ∈ trees, ∀ above : List Attributes, above ≠ [] →
      tree.remnant.flatMap (chains (fun node => node.toAttributes) (spliced above)) =
      ((tree.chains (fun node => node.toAttributes) above).filter isLeft).map spliced)
    {above : List Attributes} (habove : above ≠ []) :
    (liftAll trees).flatMap (chains (fun node => node.toAttributes) (spliced above)) =
      ((trees.flatMap (chains (fun node => node.toAttributes) above)).filter isLeft).map
        spliced := by
  rw [liftAll_eq_flatMap, List.flatMap_assoc, List.filter_flatMap, List.map_flatMap]
  exact List.flatMap_congr (fun tree htree => h tree htree above habove)

theorem chains_remnant (tree : Node) : ∀ above : List Attributes, above ≠ [] →
    tree.remnant.flatMap (chains (fun node => node.toAttributes) (spliced above)) =
      ((tree.chains (fun node => node.toAttributes) above).filter isLeft).map spliced := by
  induction tree using Node.induction with
  | node attributes children ih =>
      intro above habove
      obtain ⟨parent, higher, rfl⟩ := List.exists_cons_of_ne_nil habove
      have hbelow := chains_liftAll ih (List.cons_ne_nil attributes (parent :: higher))
      rw [chains_eq_cons _ _ ⟨attributes, children⟩]
      cases hmark : attributes.disposition with
      | elide =>
          have hout : isLeft (attributes :: parent :: higher) = false := by simp [isLeft, hmark]
          have hspliced : spliced (attributes :: parent :: higher) =
              spliced (parent :: higher) := by
            simp [spliced, hout]
          rw [hspliced] at hbelow
          rw [remnant_of_elided (by simp [isElided, hmark])]
          simp [hout, hbelow]
      | keep =>
          have hout : isLeft (attributes :: parent :: higher) = true := by simp [isLeft, hmark]
          have hspliced : spliced (attributes :: parent :: higher) =
              attributes :: spliced (parent :: higher) := by
            rw [spliced, if_pos hout]
          rw [hspliced] at hbelow
          rw [remnant_of_keep (by simp [isElided, hmark]), liftElided]
          simp [hout, hspliced, hbelow, chains_eq_cons]

/-- The nodes that are left, each with those of the nodes above it that are left. -/
theorem outline_liftElided (tree : Node) :
    tree.liftElided.outline = (tree.outline.filter isLeft).map spliced := by
  obtain ⟨attributes, children⟩ := tree
  have hbelow := chains_liftAll (fun tree (_ : tree ∈ children) => chains_remnant tree)
    (List.cons_ne_nil attributes [])
  have hroot : isLeft [attributes] = true := rfl
  have hspliced : spliced [attributes] = [attributes] := rfl
  rw [hspliced] at hbelow
  rw [liftElided, outline, outline, chains_eq_cons, chains_eq_cons, List.filter_cons, if_pos hroot,
    List.map_cons, hspliced, hbelow]

/-! ## How many are replaced -/

theorem countP_flatMap_chains {above : List Attributes} {trees : List Node}
    (h : ∀ tree ∈ trees,
      (tree.chains (fun node => node.toAttributes) above).countP (fun chain => !isLeft chain) =
        tree.nodes.countP isElided) :
    (trees.flatMap (chains (fun node => node.toAttributes) above)).countP
        (fun chain => !isLeft chain) = (nodesOf trees).countP isElided := by
  rw [nodesOf_eq_flatMap, List.countP_flatMap, List.countP_flatMap]
  exact congrArg _ (List.map_congr_left h)

theorem countP_chains {above : List Attributes} (habove : above ≠ []) (tree : Node) :
    (tree.chains (fun node => node.toAttributes) above).countP (fun chain => !isLeft chain) =
      tree.nodes.countP isElided := by
  induction tree using Node.induction generalizing above with
  | node attributes children ih =>
      obtain ⟨parent, higher, rfl⟩ := List.exists_cons_of_ne_nil habove
      have hself : (!isLeft (attributes :: parent :: higher)) =
          (Node.mk attributes children).isElided := by
        change (!(attributes.disposition != .elide)) = (attributes.disposition == .elide)
        cases attributes.disposition <;> rfl
      rw [chains_eq_cons, nodes, List.countP_cons, List.countP_cons, hself,
        countP_flatMap_chains (fun child hchild => ih child hchild (List.cons_ne_nil _ _))]

theorem elidedBelow_eq_countP (tree : Node) :
    tree.elidedBelow = tree.outline.countP (fun chain => !isLeft chain) := by
  unfold elidedBelow outline
  rw [chains_eq_cons, List.countP_cons_of_neg (by simp [isLeft]),
    countP_flatMap_chains (fun child _ => countP_chains (List.cons_ne_nil _ _) child)]

end CrossDoc.Node
