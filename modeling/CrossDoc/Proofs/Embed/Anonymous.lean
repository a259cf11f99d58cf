import CrossDoc.Proofs.Embed.Filling
import CrossDoc.Proofs.Embed.Fill
import CrossDoc.Proofs.Embed.Lifted

/-!
# Embeds add no anchors

What an embed is filled with has no identity, and what it held before may have had one; lifting
takes nodes out and makes none. So for every name there are at most as many targets of that name on
a page after its embeds are filled as before, wherever their content comes from
(`anchors_resolveAll_le`).
-/

namespace CrossDoc.Embed

open Node Node.Standing

variable {p : Attributes → Bool}

theorem count_liftEmbeds_le (hp : Ignores p) (tree : Node) :
    count p [tree.liftEmbeds] ≤ count p [tree] := by
  have hroot : p (root.kept tree none) = p tree.toAttributes := hp tree.toAttributes _ _
  rw [liftEmbeds_eq, count_singleton, count_singleton, hroot]
  exact Nat.add_le_add_right (count_liftedBelow_le hp root tree) _

theorem count_fillWith_le (hp : Ignores p)
    (htarget : ∀ attributes, p attributes = true → attributes.isTarget = true)
    (embedded : Embedded) (embed : Node) :
    count p [fillWith embedded embed] ≤ count p [embed] := by
  have hchildren : count p (fillWith embedded embed).children = 0 :=
    count_children_fill htarget embedded.target embed
  have hembed : p (fillWith embedded embed).toAttributes = p embed.toAttributes :=
    hp embed.toAttributes (some embedded.source) embed.disposition
  rw [count_singleton, count_singleton, hchildren, hembed, Nat.zero_add]
  exact Nat.le_add_left _ _

theorem count_fillAll_le (hp : Ignores p)
    (htarget : ∀ attributes, p attributes = true → attributes.isTarget = true) (tree : Node)
    (contents : List (Path × EmbedAnswer)) :
    count p [fillAll tree contents] ≤ count p [tree] :=
  fillAll_induction (motive := fun filled => count p [filled] ≤ count p [tree]) (Nat.le_refl _)
    (fun filled path _ embedded _ _ h =>
      (count_modifyAt_le (count_fillWith_le hp htarget embedded) path filled).trans h)

theorem count_resolveAll_le (hp : Ignores p)
    (htarget : ∀ attributes, p attributes = true → attributes.isTarget = true)
    (source : RemoteSource) (scope : EmbedScope) (books : Books) (cache : RemoteCache) :
    count p [(resolveAll source scope books cache).1.books.tree] ≤ count p [books.tree] := by
  rw [tree_resolveAll]
  exact (count_liftEmbeds_le hp _).trans (count_fillAll_le hp htarget books.tree _)

/--
However the embeds of a page come out, they add no target with a given identifier to the page, and
none with a given anchor.
-/
theorem anchors_resolveAll_le (source : RemoteSource) (scope : EmbedScope) (books : Books)
    (cache : RemoteCache) (name : String) :
    let before := books.tree
    let after := (resolveAll source scope books cache).1.books.tree
    after.nodes.countP (fun node => node.isTarget && node.identifier == some name) ≤
        before.nodes.countP (fun node => node.isTarget && node.identifier == some name) ∧
      after.nodes.countP (fun node => node.isTarget && node.htmlId == some name) ≤
        before.nodes.countP (fun node => node.isTarget && node.htmlId == some name) := by
  constructor
  · have hle := count_resolveAll_le
      (p := fun attributes => attributes.isTarget && attributes.identifier == some name)
      (fun _ _ _ => rfl) (fun _ hcounted => (Bool.and_eq_true_iff.1 hcounted).1)
      source scope books cache
    rwa [count_eq_countP_nodes, count_eq_countP_nodes] at hle
  · have hle := count_resolveAll_le
      (p := fun attributes => attributes.isTarget && attributes.htmlId == some name)
      (fun _ _ _ => rfl) (fun _ hcounted => (Bool.and_eq_true_iff.1 hcounted).1)
      source scope books cache
    rwa [count_eq_countP_nodes, count_eq_countP_nodes] at hle

end CrossDoc.Embed
