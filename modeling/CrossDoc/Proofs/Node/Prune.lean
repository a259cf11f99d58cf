import CrossDoc.Node.Walk
import CrossDoc.Proofs.Node.Lineage

/-!
# Pruning

What is left of a tree when nodes that fail a test are taken out of it: the nodes that survive, in
the same order, each below those that it was below (`chains_filter?`). A node without children
survives if it passes with all that is above it, another one if it passes and one of its children
survives (`Lineage.Survives`). Pruning by one test and then by another is pruning by both at once
(`filter?_filter?`), for a node that lost its children is gone and never counts as childless.
-/

namespace CrossDoc

namespace Node

variable {keep other : Attributes → Bool} {tree node : Node}

theorem filterAll_eq_filterMap (keep : Attributes → Bool) (trees : List Node) :
    filterAll keep trees = trees.filterMap (filter? keep) := by
  induction trees with
  | nil => rw [filterAll]; rfl
  | cons tree rest ih =>
      rw [filterAll, List.filterMap_cons, ih]
      split <;> simp_all

theorem filter?_of_not_keep (h : keep node.toAttributes = false) : node.filter? keep = none := by
  obtain ⟨attributes, children⟩ := node
  cases children with
  | nil => simp [filter?, h]
  | cons child rest => simp [filter?, h]

theorem filter?_of_leaf (hkeep : keep node.toAttributes = true) (hleaf : node.children = []) :
    node.filter? keep = some node := by
  obtain ⟨attributes, children⟩ := node
  obtain rfl : children = [] := hleaf
  simp [filter?, hkeep]

theorem filter?_of_keep (hkeep : keep node.toAttributes = true) (hchildren : node.children ≠ []) :
    node.filter? keep = if node.children.filterMap (filter? keep) = [] then none
      else some ⟨node.toAttributes, node.children.filterMap (filter? keep)⟩ := by
  obtain ⟨attributes, children⟩ := node
  cases children with
  | nil => exact absurd rfl hchildren
  | cons child rest =>
      rw [filter?, if_pos hkeep, filterAll_eq_filterMap]
      split <;> simp_all

theorem keep_of_isSome_filter? (h : (node.filter? keep).isSome = true) :
    keep node.toAttributes = true := by
  by_contra hfails
  rw [filter?_of_not_keep (by simpa using hfails)] at h
  exact absurd h Bool.false_ne_true

theorem isSome_filter?_of_mem {child : Node} (hkeep : keep node.toAttributes = true)
    (hchild : child ∈ node.children) (h : (child.filter? keep).isSome = true) :
    (node.filter? keep).isSome = true := by
  obtain ⟨kept, hkept⟩ := Option.isSome_iff_exists.1 h
  have hmem : kept ∈ node.children.filterMap (filter? keep) :=
    List.mem_filterMap.2 ⟨child, hchild, hkept⟩
  rw [filter?_of_keep hkeep (List.ne_nil_of_mem hchild), if_neg (List.ne_nil_of_mem hmem)]
  rfl

/-! ## Two tests -/

theorem filter?_eq_some (h : ∀ attributes, keep attributes = true) (tree : Node) :
    tree.filter? keep = some tree := by
  induction tree using induction with
  | node attributes children ih =>
      by_cases hchildren : children = []
      · exact filter?_of_leaf (h attributes) hchildren
      · have hall : children.filterMap (filter? keep) = children := by
          rw [List.filterMap_congr ih, List.filterMap_some]
        rw [filter?_of_keep (h attributes) hchildren, hall, if_neg hchildren]

/-- Pruning by one test and then by another is pruning by both. -/
theorem filter?_filter? (keep other : Attributes → Bool) (tree : Node) :
    (tree.filter? keep).bind (filter? other) =
      tree.filter? (fun attributes => keep attributes && other attributes) := by
  induction tree using induction with
  | node attributes children ih =>
      cases hkeep : keep attributes with
      | false => rw [filter?_of_not_keep hkeep, filter?_of_not_keep (by simp [hkeep])]; rfl
      | true =>
          by_cases hchildren : children = []
          · subst hchildren
            rw [filter?_of_leaf hkeep rfl, Option.bind_some]
            cases hother : other attributes with
            | false => rw [filter?_of_not_keep hother, filter?_of_not_keep (by simp [hother])]
            | true =>
                rw [filter?_of_leaf hother rfl, filter?_of_leaf (by simp [hkeep, hother]) rfl]
          · have hboth : (children.filterMap (filter? keep)).filterMap (filter? other) =
                children.filterMap
                  (filter? (fun attributes => keep attributes && other attributes)) := by
              rw [List.filterMap_filterMap]
              exact List.filterMap_congr ih
            rw [filter?_of_keep hkeep hchildren]
            cases hother : other attributes with
            | false =>
                rw [filter?_of_not_keep (by simp [hother])]
                split
                · rfl
                · exact filter?_of_not_keep hother
            | true =>
                rw [filter?_of_keep (by simp [hkeep, hother]) hchildren]
                by_cases hkept : children.filterMap (filter? keep) = []
                · rw [hkept] at hboth
                  simp [hkept, ← hboth]
                · rw [if_neg hkept, Option.bind_some, filter?_of_keep hother hkept]
                  simp only [hboth]

end Node

/-! ## What survives -/

namespace Lineage

open Node

/-- A node is left when the nodes that fail `keep` are taken out. -/
inductive Survives (keep : Attributes → Bool) : Lineage → Prop where
  | leaf {node : Node} {above : Lineage} (hleaf : node.children = [])
      (hkeep : ∀ found ∈ node :: above, keep found.toAttributes = true) :
      Survives keep (node :: above)
  | parent {node child : Node} {above : Lineage} (hkeep : keep node.toAttributes = true)
      (hchild : child ∈ node.children) (hsurvives : Survives keep (child :: node :: above)) :
      Survives keep (node :: above)

variable {keep : Attributes → Bool} {node : Node} {above lineage : Lineage}

theorem survives_iff : Survives keep (node :: above) ↔
    (∀ found ∈ above, keep found.toAttributes = true) ∧ (node.filter? keep).isSome = true := by
  constructor
  · intro h
    generalize hlineage : node :: above = lineage at h
    induction h generalizing node above with
    | leaf hleaf hkeep =>
        obtain ⟨rfl, rfl⟩ := List.cons.inj hlineage
        refine ⟨fun found hfound => hkeep found (List.mem_cons_of_mem node hfound), ?_⟩
        rw [filter?_of_leaf (hkeep node List.mem_cons_self) hleaf]
        rfl
    | parent hkeep hchild _ ih =>
        obtain ⟨rfl, rfl⟩ := List.cons.inj hlineage
        obtain ⟨habove, hleft⟩ := ih rfl
        exact ⟨fun found hfound => habove found (List.mem_cons_of_mem node hfound),
          isSome_filter?_of_mem hkeep hchild hleft⟩
  · rintro ⟨habove, h⟩
    induction node using Node.induction generalizing above with
    | node attributes children ih =>
        have hkeep := keep_of_isSome_filter? h
        have hall : ∀ found ∈ ⟨attributes, children⟩ :: above, keep found.toAttributes = true :=
          List.forall_mem_cons.2 ⟨hkeep, habove⟩
        by_cases hchildren : children = []
        · exact Survives.leaf hchildren hall
        · have hkept : children.filterMap (filter? keep) ≠ [] := by
            intro hnone
            rw [filter?_of_keep hkeep hchildren, if_pos hnone] at h
            exact absurd h Bool.false_ne_true
          obtain ⟨kept, hmem⟩ := List.exists_mem_of_ne_nil _ hkept
          obtain ⟨child, hchild, hleft⟩ := List.mem_filterMap.1 hmem
          exact Survives.parent hkeep hchild
            (ih child hchild hall (Option.isSome_iff_exists.2 ⟨kept, hleft⟩))

instance (keep : Attributes → Bool) : DecidablePred (Survives keep)
  | [] => isFalse nofun
  | _ :: _ => decidable_of_iff' _ survives_iff

theorem keep_of_survives (h : Survives keep lineage) :
    ∀ found ∈ lineage, keep found.toAttributes = true := by
  cases lineage with
  | nil => exact List.forall_mem_nil _
  | cons node above =>
      obtain ⟨habove, hleft⟩ := survives_iff.1 h
      exact List.forall_mem_cons.2 ⟨keep_of_isSome_filter? hleft, habove⟩

theorem survives_iff_filterMap_ne_nil (hchildren : node.children ≠ [])
    (hkeep : ∀ found ∈ node :: above, keep found.toAttributes = true) :
    Survives keep (node :: above) ↔ node.children.filterMap (filter? keep) ≠ [] := by
  obtain ⟨hself, habove⟩ := List.forall_mem_cons.1 hkeep
  rw [survives_iff, and_iff_right habove, filter?_of_keep hself hchildren]
  split <;> simp_all

theorem filter_chains_of_not_keep (h : keep node.toAttributes = false) (above : Lineage) :
    (node.chains id above).filter (fun lineage => Survives keep lineage) = [] := by
  refine List.filter_eq_nil_iff.2 (fun lineage hmem hsurvives => ?_)
  obtain ⟨lower, rfl⟩ := exists_append_of_mem_chains hmem
  have hpass := keep_of_survives (of_decide_eq_true hsurvives) node (by simp)
  exact absurd (h.symm.trans hpass) Bool.false_ne_true

end Lineage

namespace Node

open Lineage

variable {α : Type}

/-- What is left of a tree is what survives, in document order. -/
theorem chains_filter? (f : Attributes → α) (keep : Attributes → Bool) {above : Lineage}
    (habove : ∀ found ∈ above, keep found.toAttributes = true) (tree : Node) :
    (tree.filter? keep).toList.flatMap
        (chains (fun node => f node.toAttributes) (above.map (fun node => f node.toAttributes))) =
      ((tree.chains id above).filter (fun lineage => Survives keep lineage)).map
        (List.map (fun node => f node.toAttributes)) := by
  induction tree using induction generalizing above with
  | node attributes children ih =>
      cases hkeep : keep attributes with
      | false =>
          rw [filter?_of_not_keep hkeep, filter_chains_of_not_keep hkeep]
          rfl
      | true =>
          have hall : ∀ found ∈ ⟨attributes, children⟩ :: above, keep found.toAttributes = true :=
            List.forall_mem_cons.2 ⟨hkeep, habove⟩
          rw [chains_eq_cons, List.filter_cons, List.filter_flatMap]
          by_cases hchildren : children = []
          · subst hchildren
            have hself : Survives keep (⟨attributes, []⟩ :: above) := Survives.leaf rfl hall
            rw [filter?_of_leaf hkeep rfl]
            simp [hself, chains_eq_cons]
          · have hbelow : (children.filterMap (filter? keep)).flatMap
                (chains (fun node => f node.toAttributes)
                  (f attributes :: above.map (fun node => f node.toAttributes))) =
                (children.flatMap (fun child =>
                  (child.chains id (⟨attributes, children⟩ :: above)).filter
                    (fun lineage => Survives keep lineage))).map
                      (List.map (fun node => f node.toAttributes)) := by
              rw [List.filterMap_eq_flatMap_toList, List.flatMap_assoc, List.map_flatMap]
              exact List.flatMap_congr (fun child hchild => ih child hchild hall)
            have hself : Survives keep (⟨attributes, children⟩ :: above) ↔
                children.filterMap (filter? keep) ≠ [] :=
              survives_iff_filterMap_ne_nil hchildren hall
            rw [filter?_of_keep hkeep hchildren]
            by_cases hkept : children.filterMap (filter? keep) = []
            · rw [hkept, List.flatMap_nil] at hbelow
              rw [if_pos hkept, id, if_neg (by simpa [hself] using hkept), ← hbelow]
              rfl
            · rw [if_neg hkept, id, if_pos (by simpa [hself] using hkept), List.map_cons, ← hbelow]
              simp [chains_eq_cons]

end Node

end CrossDoc
