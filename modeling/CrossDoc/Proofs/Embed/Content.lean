import CrossDoc.Proofs.Embed.Fill
import CrossDoc.Proofs.Embed.Lifted
import CrossDoc.Proofs.Embed.Answers
import CrossDoc.Proofs.Embed.Rebase

/-!
# What embeds are filled with

An embed is filled with nodes of its target (`supplies_children_fill`). The target in turn is
selected from a page and rebased, and none of this makes an embed: if no page that embeds copy from
holds one, then nothing that an embed is filled with does (`embedFree_answer`,
`EmbedFree.children_fill`).
-/

namespace CrossDoc

namespace Node

variable {tree node : Node}

/-- Every node of a tree has its type and its source from a node of `origin`. -/
def Supplies (origin tree : Node) : Prop :=
  ∀ node ∈ tree.nodes, ∃ before ∈ origin.nodes,
    node.type = before.type ∧ node.source = before.source

theorem Supplies.embedFree {origin : Node} (h : origin.Supplies tree) (hfree : origin.EmbedFree) :
    tree.EmbedFree := by
  intro node hnode
  obtain ⟨before, hbefore, htype, -⟩ := h node hnode
  have hnone := hfree before hbefore
  unfold Attributes.is at hnone ⊢
  rw [htype]
  exact hnone

theorem supplies_children_fill (tree embed : Node) :
    ∀ child ∈ (fill (some tree) embed).children, tree.Supplies child := by
  intro child hchild node hnode
  have hcarried := mem_carried_iff.2 ⟨child, hchild, node, hnode, rfl⟩
  obtain ⟨attributes, hattributes, hsame⟩ := List.mem_map.1
    ((carried_children_fill_sublist tree embed).subset hcarried)
  obtain ⟨before, hbefore, rfl⟩ := List.mem_map.1
    (carried_eq_map_nodes tree ▸ (carried_unwrapped_sublist tree).subset hattributes)
  refine ⟨before, hbefore, ?_⟩
  rw [← hsame]
  exact ⟨before.type_anonymous, before.source_anonymous⟩

theorem EmbedFree.children_fill (h : tree.EmbedFree) (embed : Node) :
    ∀ child ∈ (fill (some tree) embed).children, child.EmbedFree :=
  fun child hchild => (supplies_children_fill tree embed child hchild).embedFree h

/-! ## Rebasing -/

theorem EmbedFree.mapAttributes (h : tree.EmbedFree) {f : Attributes → Attributes}
    (hf : ∀ attributes, (f attributes).type = attributes.type) :
    (tree.mapAttributes f).EmbedFree := by
  intro found hfound
  rw [nodes_mapAttributes] at hfound
  obtain ⟨node, hnode, rfl⟩ := List.mem_map.1 hfound
  unfold Attributes.is
  rw [toAttributes_mapAttributes, hf]
  exact h node hnode

theorem EmbedFree.anchorTo (h : tree.EmbedFree) (pageUrl : String) :
    (tree.anchorTo pageUrl).EmbedFree := by
  refine h.mapAttributes (fun attributes => ?_)
  unfold Attributes.anchorTo
  split
  · rfl
  · rfl

theorem EmbedFree.rebase (h : tree.EmbedFree) (reference : Attributes) :
    (tree.rebase reference).EmbedFree :=
  h.mapAttributes (Attributes.type_rebase reference)

end Node

/-! ## What pages have for a label -/

namespace Embed

open RemoteCache

/-- No page that embeds copy from holds an embed. -/
structure CopiesEmbedFree (scope : EmbedScope) (answers : PageAnswers) : Prop where
  trees : ∀ path tree, scope.trees.get? path = some tree → tree.EmbedFree
  pages : ∀ url page, answers url = some page → page.content.EmbedFree

variable {scope : EmbedScope} {answers : PageAnswers}

theorem embedFree_block {nodes : List Node} (h : ∀ node ∈ nodes, node.EmbedFree) :
    (Node.ofType NodeType.block nodes).EmbedFree :=
  Node.embedFree_iff.2 ⟨show (NodeType.block == NodeType.embed) = false by decide, h⟩

theorem embedFree_contentOf {page : PageTargets} {identifier : String} {tree : Node}
    (h : tree.EmbedFree) : ∀ node ∈ contentOf page identifier tree, node.EmbedFree := by
  unfold contentOf
  split
  · exact (Node.embedFree_iff.1 h).2
  · exact fun node hnode => h.of_mem (Node.mem_nodes_of_mem_selectTarget hnode)

theorem embedFree_answer (h : CopiesEmbedFree scope answers) {label : String} {embedded : Embedded}
    (hresult : (answer scope label answers).result = some embedded) :
    embedded.target.EmbedFree := by
  unfold answer at hresult
  split at hresult
  · obtain ⟨reference, dataUrl, page, nodes, -, -, hpage, htaken, rfl⟩ :=
      exists_rebased_of_remoteAnswer hresult
    exact (embedFree_block (fun node hnode =>
      (h.pages dataUrl page hpage).of_mem (mem_nodes_of_taken? htaken hnode))).rebase reference
  · obtain ⟨identifier, owner, page, tree, -, -, htree, -, hcopied⟩ :=
      exists_owner_of_result hresult
    have hcontent : (Node.ofType NodeType.block
        (contentOf page.targets identifier tree)).EmbedFree :=
      embedFree_block (embedFree_contentOf (h.trees owner tree htree))
    rw [hcopied, target_copied]
    by_cases hown : owner = scope.file
    · rw [if_pos hown]
      exact hcontent
    · rw [if_neg hown]
      exact hcontent.anchorTo page.targets.url

theorem label_of_answer {label : String} {embedded : Embedded}
    (h : (answer scope label answers).result = some embedded) :
    embedded.source.label = some label := by
  unfold answer at h
  split at h
  · obtain ⟨reference, dataUrl, page, nodes, -, -, -, -, rfl⟩ := exists_rebased_of_remoteAnswer h
    rfl
  · obtain ⟨identifier, owner, page, tree, -, -, -, -, hcopied⟩ := exists_owner_of_result h
    rw [hcopied]
    rfl

theorem label?_fillWith {label : String} {embedded : Embedded} {embed : Node}
    (hlabel : embedded.source.label = some label) (h : label? embed.toAttributes = some label) :
    label? (fillWith embedded embed).toAttributes = some label := by
  unfold label? at h ⊢
  split at h
  · rename_i hembed
    have hnonempty : (!label.isEmpty) = true :=
      (Option.filter_eq_some_iff.1 h).2
    have hfilled : (fillWith embedded embed).is NodeType.embed = true := hembed
    rw [if_pos hfilled]
    simp [fillWith, hlabel, hnonempty]
  · simp at h

end Embed

end CrossDoc
