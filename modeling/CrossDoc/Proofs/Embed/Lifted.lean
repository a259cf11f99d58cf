import CrossDoc.Proofs.Embed.Settled

/-!
# Trees that lifting leaves alone

If there is nothing in a tree to take out and nothing for its root to take over or to hand on, then
lifting only replaces the nodes that are marked already (`liftEmbeds_of_isLifted`). Whatever lifting
takes out besides, an embed goes with it (`settled_of_tally_eq`). So it gives a tree with no fewer
embeds and the same mark only in this way (`liftEmbeds_eq_iff`).
-/

namespace CrossDoc.Node

/--
There is nothing left in a tree for lifting to do: nothing below the root to take out, no sole embed
for the root to take its source from, and no container for it to hand its source to.
-/
structure IsLifted (tree : Node) : Prop where
  below : ∀ child ∈ tree.children, child.Settled false
  notTaking : tree.is NodeType.container = true → soleEmbed? tree.children = none
  notWrapping : tree.is NodeType.embed = true → tree.disposition = .keep →
    isSoleContainer tree.children = false

instance (tree : Node) : Decidable tree.IsLifted :=
  decidable_of_iff ((∀ child ∈ tree.children, child.Settled false) ∧
    (tree.is NodeType.container = true → soleEmbed? tree.children = none) ∧
      (tree.is NodeType.embed = true → tree.disposition = .keep →
        isSoleContainer tree.children = false))
    ⟨fun ⟨below, notTaking, notWrapping⟩ => ⟨below, notTaking, notWrapping⟩,
      fun ⟨below, notTaking, notWrapping⟩ => ⟨below, notTaking, notWrapping⟩⟩

def EmbedFree (tree : Node) : Prop := ∀ found ∈ tree.nodes, found.is NodeType.embed = false

instance (tree : Node) : Decidable tree.EmbedFree :=
  inferInstanceAs (Decidable (∀ found ∈ tree.nodes, found.is NodeType.embed = false))

/-- No marked node of a tree is an embed or holds one. -/
def SparesEmbeds (tree : Node) : Prop :=
  ∀ found ∈ tree.nodes, found.disposition = .elide → found.EmbedFree

variable {tree node : Node} {trees : List Node}

theorem embedFree_iff : tree.EmbedFree ↔
    tree.is NodeType.embed = false ∧ ∀ child ∈ tree.children, child.EmbedFree :=
  forall_mem_nodes_iff

theorem sparesEmbeds_iff : tree.SparesEmbeds ↔
    (tree.disposition = .elide → tree.EmbedFree) ∧ ∀ child ∈ tree.children, child.SparesEmbeds :=
  forall_mem_nodes_iff

theorem Unmarked.sparesEmbeds (h : tree.Unmarked) : tree.SparesEmbeds := by
  intro found hfound hmark
  rw [h found hfound] at hmark
  exact Disposition.noConfusion hmark

/-! ## Trees without embeds -/

theorem EmbedFree.of_mem (h : tree.EmbedFree) (hnode : node ∈ tree.nodes) : node.EmbedFree := by
  obtain ⟨path, hpath⟩ := mem_nodes_iff_exists_at?.1 hnode
  exact fun found hfound => h found (mem_nodes_of_at? hpath hfound)

theorem EmbedFree.sparesEmbeds (h : tree.EmbedFree) : tree.SparesEmbeds :=
  fun _ hfound _ => h.of_mem hfound

theorem soleEmbed?_of_embedFree (h : ∀ tree ∈ trees, tree.EmbedFree) : soleEmbed? trees = none := by
  have hnone : trees.filter (fun tree => tree.is NodeType.embed) = [] :=
    List.filter_eq_nil_iff.2 (fun tree htree => by simp [(embedFree_iff.1 (h tree htree)).1])
  unfold soleEmbed?
  rw [hnone]

theorem EmbedFree.settled (h : tree.EmbedFree) : tree.Settled false := by
  intro found hfound
  obtain ⟨hself, hchildren⟩ := embedFree_iff.1 (h.of_mem hfound)
  exact { stays := rfl
          notTaking := fun _ => soleEmbed?_of_embedFree hchildren
          notWrapping := fun hembed => by simp [hself] at hembed }

theorem tally_of_embedFree (h : ∀ tree ∈ trees, tree.EmbedFree) :
    tally (· == NodeType.embed) trees = 0 := by
  unfold tally
  rw [nodesOf_eq_flatMap, List.countP_eq_zero]
  intro found hfound
  obtain ⟨tree, htree, hfound⟩ := List.mem_flatMap.1 hfound
  simpa [Attributes.is] using h tree htree found hfound

/-! ## Changes at a path -/

section

variable {f : Node → Node} {path : Path}

theorem EmbedFree.modifyAt (h : tree.EmbedFree) (hf : ∀ node, node.EmbedFree → (f node).EmbedFree) :
    (modifyAt f path tree).EmbedFree := by
  induction path generalizing tree with
  | nil => exact hf tree h
  | cons place rest ih =>
      obtain ⟨hself, hchildren⟩ := embedFree_iff.1 h
      exact embedFree_iff.2 ⟨hself, forall_mem_modify hchildren (fun _ => ih)⟩

theorem SparesEmbeds.modifyAt (h : tree.SparesEmbeds)
    (hfree : ∀ node, node.EmbedFree → (f node).EmbedFree)
    (hf : ∀ node, node.SparesEmbeds → (f node).SparesEmbeds) :
    (modifyAt f path tree).SparesEmbeds := by
  induction path generalizing tree with
  | nil => exact hf tree h
  | cons place rest ih =>
      obtain ⟨hself, hchildren⟩ := sparesEmbeds_iff.1 h
      exact sparesEmbeds_iff.2 ⟨fun hmark => (hself hmark).modifyAt hfree,
        forall_mem_modify hchildren (fun _ => ih)⟩

theorem count_modify_le {p : Attributes → Bool} (hf : ∀ node, count p [f node] ≤ count p [node])
    (place : Nat) (siblings : List Node) :
    count p (siblings.modify place f) ≤ count p siblings := by
  induction siblings generalizing place with
  | nil => cases place <;> exact Nat.le_refl 0
  | cons node rest ih =>
      cases place with
      | zero =>
          rw [List.modify_zero_cons, count_cons (f node), count_cons node]
          exact Nat.add_le_add_right (hf node) _
      | succ place =>
          rw [List.modify_succ_cons, count_cons node (rest.modify place f), count_cons node rest]
          exact Nat.add_le_add_left (ih place) _

theorem count_modifyAt_le {p : Attributes → Bool} (hf : ∀ node, count p [f node] ≤ count p [node])
    (path : Path) (tree : Node) : count p [modifyAt f path tree] ≤ count p [tree] := by
  induction path generalizing tree with
  | nil => exact hf tree
  | cons place rest ih =>
      rw [count_singleton, count_singleton]
      exact Nat.add_le_add_right (count_modify_le ih place tree.children) _

end

namespace Standing

variable {filled : Node}

theorem liftEmbeds_eq_plain (tree : Node) :
    tree.liftEmbeds = ⟨(plain false).kept tree none, (plain false).liftedBelow tree⟩ :=
  liftEmbeds_eq tree

theorem siblings_plain_false : (plain false).siblings node = node.children :=
  List.filter_eq_self.2 (fun _ _ => rfl)

theorem elides_of_keep (h : node.disposition = .keep) :
    (plain false).elides node = (plain false).wraps node := by
  simp [elides, marked, markedAttributes, h]

theorem is_embed_of_wraps {standing : Standing} (h : standing.wraps node = true) :
    node.is NodeType.embed = true := by
  unfold wraps wrapsContainer at h
  simp only [Bool.and_eq_true] at h
  exact h.1.1

theorem settled_of_tally_eq (hspares : ∀ child ∈ node.children, child.SparesEmbeds)
    (h : tally (· == NodeType.embed) ((plain false).liftedBelow node) =
      tally (· == NodeType.embed) node.children) :
    ∀ child ∈ node.children, child.Settled false := by
  induction node using Node.induction with
  | node attributes children ih =>
      intro child hchild
      obtain ⟨hself, hchildren⟩ := sparesEmbeds_iff.1 (hspares child hchild)
      cases hmark : child.disposition with
      | elide => exact (hself hmark).settled
      | keep =>
          have hleft := tally_left_eq h hchild
          rw [left, if_neg (by simp [strips_plain]),
            below_plain (taken?_of_tally_eq (by decide) h)] at hleft
          have helides : (plain false).elides child = false := by
            rw [elides_of_keep hmark]
            by_contra hwraps
            have hwraps : (plain false).wraps child = true := by simpa using hwraps
            have hlt := tally_lifted_lt_of_elides ((plain false).handed ⟨attributes, children⟩)
              (p := (· == NodeType.embed)) (is_embed_of_wraps hwraps)
              ((elides_of_keep hmark).trans hwraps)
            exact Nat.lt_irrefl _ (hleft ▸ hlt)
          rw [lifted_of_elides_eq_false _ _ _ helides, tally_singleton, tally_singleton] at hleft
          have hbelow : tally (· == NodeType.embed) ((plain false).liftedBelow child) =
              tally (· == NodeType.embed) child.children := Nat.add_right_cancel hleft
          exact settled_iff.2 ⟨isStill_of_elides_eq_false rfl helides siblings_plain_false
            (taken?_of_tally_eq (by decide) hbelow), ih child hchild hchildren hbelow⟩

/-! ## Nothing to do -/

theorem taken?_of_isLifted (h : tree.IsLifted) : (plain false).taken? tree = none := by
  unfold taken? takenOver?
  rw [siblings_plain_false]
  split
  · rename_i hcontainer
    simp only [Bool.and_eq_true] at hcontainer
    exact h.notTaking hcontainer.1.1
  · rfl

theorem wraps_of_isLifted (h : tree.IsLifted) : (plain false).wraps tree = false := by
  unfold wraps wrapsContainer
  rw [marked_plain (taken?_of_isLifted h), siblings_plain_false]
  cases hembed : tree.is NodeType.embed with
  | false => rfl
  | true =>
      cases hkeep : tree.disposition with
      | elide => simp
      | keep => simp [h.notWrapping hembed hkeep]

/-- From a lifted tree, lifting takes out what is marked already. -/
theorem liftEmbeds_of_isLifted (h : tree.IsLifted) : tree.liftEmbeds = tree.liftElided := by
  have hmark : tree.markLifted = tree := by
    rw [← mark_root]
    exact (mark_eq_given (taken?_of_isLifted h) (wraps_of_isLifted h) siblings_plain_false
      (fun child hchild => by rw [mark_of_settled (h.below child hchild), given_none]) none).trans
        (given_none tree)
  rw [liftEmbeds, hmark]

theorem isLifted_of_liftEmbeds_eq (hspares : ∀ child ∈ filled.children, child.SparesEmbeds)
    (hmark : filled.disposition = .elide → filled.is NodeType.embed = true)
    (hsame : filled.disposition = tree.disposition)
    (htally : tally (· == NodeType.embed) [filled] ≤ tally (· == NodeType.embed) [tree])
    (hlift : filled.liftEmbeds = tree) : filled.IsLifted := by
  have hsplit : tree = ⟨(plain false).kept filled none, (plain false).liftedBelow filled⟩ :=
    hlift.symm.trans (liftEmbeds_eq_plain filled)
  have hbelow : tally (· == NodeType.embed) ((plain false).liftedBelow filled) =
      tally (· == NodeType.embed) filled.children := by
    refine Nat.le_antisymm (tally_liftedBelow_le _ _ _) ?_
    rw [hsplit, tally_singleton, tally_singleton] at htally
    exact Nat.le_of_add_le_add_right htally
  have htaken := taken?_of_tally_eq (p := (· == NodeType.embed)) rfl hbelow
  refine ⟨settled_of_tally_eq hspares hbelow, fun hcontainer => ?_, fun hembed hkeep => ?_⟩
  · have hkeep : filled.disposition ≠ .elide := fun helide => by
      simp [not_container_of_embed (hmark helide)] at hcontainer
    simpa [taken?, takenOver?, hcontainer, hkeep, siblings_plain_false] using htaken
  · by_contra hsole
    have hwraps : (plain false).wraps filled = true := by
      unfold wraps wrapsContainer
      rw [marked_plain htaken, siblings_plain_false, hembed, hkeep]
      simpa using hsole
    have helides : (plain false).elides filled = true := (elides_of_keep hkeep).trans hwraps
    rw [hsplit] at hsame
    simp [kept, helides, hkeep] at hsame

theorem liftEmbeds_eq_iff (hspares : ∀ child ∈ filled.children, child.SparesEmbeds)
    (hmark : filled.disposition = .elide → filled.is NodeType.embed = true)
    (hsame : filled.disposition = tree.disposition)
    (htally : tally (· == NodeType.embed) [filled] ≤ tally (· == NodeType.embed) [tree]) :
    filled.liftEmbeds = tree ↔ filled.IsLifted ∧ filled.liftElided = tree := by
  constructor
  · intro hlift
    have hlifted := isLifted_of_liftEmbeds_eq hspares hmark hsame htally hlift
    exact ⟨hlifted, (liftEmbeds_of_isLifted hlifted).symm.trans hlift⟩
  · rintro ⟨hlifted, helided⟩
    exact (liftEmbeds_of_isLifted hlifted).trans helided

/-! ## What comes out of lifting -/

theorem unmarkedBelow_liftEmbeds (tree : Node) : tree.liftEmbeds.UnmarkedBelow :=
  unmarkedBelow_liftElided tree.markLifted

theorem is_embed_of_marked_liftEmbeds (hkeep : tree.disposition = .keep)
    (h : tree.liftEmbeds.disposition = .elide) : tree.liftEmbeds.is NodeType.embed = true := by
  rw [liftEmbeds_eq_plain] at h ⊢
  have helides : (plain false).elides tree = true := by
    by_contra hstays
    simp [kept, hstays] at h
  have hembed : tree.is NodeType.embed = true :=
    is_embed_of_wraps ((elides_of_keep hkeep).symm.trans helides)
  exact hembed

end Standing

end CrossDoc.Node
