import CrossDoc.Proofs.Embed.Wrapper

/-!
# What lifting leaves

In a tree without marks, the nodes that lifting leaves are those that stay, in the same order, each
below the nearest of those that it was below; and as many are counted as are replaced
(`outline_liftEmbeds`).
-/

namespace CrossDoc

open Node Standing

namespace Lineage

variable {node parent tree : Node} {above lineage : Lineage}

/-! ## Marks -/

def handedTo : Lineage → Option (Option Dependency)
  | _ :: parent :: above => (standing (parent :: above)).handed parent
  | _ => none

def marks : Lineage → List Attributes
  | [] => []
  | node :: above => (standing (node :: above)).kept node (handedTo (node :: above)) :: marks above

theorem isDropped_append_of_isDropped (lower : Lineage) (h : isDropped lineage = true) :
    isDropped (lower ++ lineage) = true := by
  induction lower with
  | nil => exact h
  | cons node rest ih => simp [isDropped, ih]

theorem filter_chains_of_isDropped (h : isDropped (node :: above) = true) :
    (node.chains id above).filter (fun lineage => !isDropped lineage) = [] := by
  refine List.filter_eq_nil_iff.2 (fun lineage hmem => ?_)
  obtain ⟨lower, rfl⟩ := exists_append_of_mem_chains hmem
  simp [isDropped_append_of_isDropped lower h]

theorem shown_eq_filter (hstays : isDropped (node :: above) = false) :
    shown (node :: above) =
      node.children.filter (fun child => !isDropped (child :: node :: above)) := by
  refine List.filter_congr (fun child _ => ?_)
  rw [isDropped, hstays, Bool.or_false, isBelowInner, Bool.and_comm]

theorem flatMap_filter_of_eq_nil {α β : Type} {p : α → Bool} {f : α → List β} {items : List α}
    (h : ∀ item ∈ items, p item = false → f item = []) :
    (items.filter p).flatMap f = items.flatMap f := by
  induction items with
  | nil => rfl
  | cons item rest ih =>
      have hrest := ih (fun other hmem => h other (List.mem_cons_of_mem item hmem))
      cases hitem : p item with
      | true => rw [List.filter_cons_of_pos hitem, List.flatMap_cons, List.flatMap_cons, hrest]
      | false =>
          rw [List.filter_cons_of_neg (by simp [hitem]), List.flatMap_cons,
            h item List.mem_cons_self hitem, List.nil_append, hrest]

/-- The marked tree holds what is not dropped, with its marks. -/
theorem chains_mark (hunmarked : node.Unmarked) (hstays : isDropped (node :: above) = false) :
    ((standing (node :: above)).mark node (handedTo (node :: above))).chains
        (fun node => node.toAttributes) (marks above) =
      ((node.chains id above).filter (fun lineage => !isDropped lineage)).map marks := by
  induction node using Node.induction generalizing above with
  | node attributes children ih =>
      obtain ⟨hkeep, hbelow⟩ := unmarked_iff.1 hunmarked
      have hshown : children.flatMap (fun child =>
          ((child.chains id (⟨attributes, children⟩ :: above)).filter
            (fun lineage => !isDropped lineage)).map marks) =
          (shown (⟨attributes, children⟩ :: above)).flatMap (fun child =>
            ((child.chains id (⟨attributes, children⟩ :: above)).filter
              (fun lineage => !isDropped lineage)).map marks) := by
        rw [shown_eq_filter hstays, flatMap_filter_of_eq_nil]
        intro child _ hdrop
        rw [filter_chains_of_isDropped (by simpa using hdrop)]
        rfl
      rw [mark_eq, chains_eq_cons, chains_eq_cons _ _ ⟨attributes, children⟩, List.filter_cons,
        if_pos (by rw [id, hstays]; rfl), List.map_cons, List.filter_flatMap, List.map_flatMap,
        id, hshown, List.flatMap_map, siblings_standing]
      refine congrArg _ (List.flatMap_congr (fun child hchild => ?_))
      rw [below_standing hkeep hchild]
      rw [shown_eq_filter hstays, List.mem_filter, Bool.not_eq_true'] at hchild
      exact ih child hchild.1 (hbelow child hchild.1) hchild.2

/-! ## Marks along a lineage -/

theorem mem_shown_of_linked (hlinked : Linked (node :: parent :: above))
    (hstays : isDropped (node :: parent :: above) = false) : node ∈ shown (parent :: above) := by
  have habove : isDropped (parent :: above) = false := by
    rw [isDropped, Bool.or_eq_false_iff] at hstays
    exact hstays.2
  rw [shown_eq_filter habove, List.mem_filter, hstays]
  exact ⟨(List.isChain_cons_cons.1 hlinked).1, rfl⟩

theorem source_kept (hkeep : ∀ found ∈ node :: above, found.disposition = .keep)
    (hlinked : Linked (node :: above)) (h : stays (node :: above) = true) :
    ((standing (node :: above)).kept node (handedTo (node :: above))).source =
      sourceLeft (node :: above) := by
  have hinner := isInner_of_stays h
  have hdropped := isDropped_of_stays h
  have hsource := source_marked_standing (hkeep node List.mem_cons_self) hinner
  change (handedTo (node :: above)).getD ((standing (node :: above)).marked node).source = _
  rw [hsource]
  cases above with
  | nil =>
      cases hcontainer : node.is NodeType.container <;>
        simp [handedTo, sourceLeft, hcontainer, lender?]
  | cons parent above =>
      rw [handedTo, handed_standing (hkeep parent (by simp))]
      cases hcover : isCover (parent :: above) with
      | false =>
          cases hcontainer : node.is NodeType.container <;>
            simp [sourceLeft, hcontainer, lender?, hcover]
      | true =>
          have hsole := isSoleContainer_of_isCover hcover
          have hcontainer := is_container_of_mem hsole (mem_shown_of_linked hlinked hdropped)
          have hplain : isSoleEmbed (parent :: above) = false := by
            cases hplain : isSoleEmbed (parent :: above) with
            | false => rfl
            | true =>
                change (_ && _ && isSoleContainer (shown (parent :: above))) = false at hinner
                rw [hcontainer, hplain, hsole] at hinner
                exact hinner
          simp [sourceLeft, hcontainer, lender?, hcover, hplain]

theorem kept_eq_attributesLeft (hkeep : ∀ found ∈ node :: above, found.disposition = .keep)
    (hlinked : Linked (node :: above)) (h : stays (node :: above) = true) :
    (standing (node :: above)).kept node (handedTo (node :: above)) =
      attributesLeft (node :: above) := by
  have helides := elides_standing (hkeep node List.mem_cons_self) above
  rw [isSoleEmbed_of_stays h, isInner_of_stays h, Bool.false_or, Bool.or_false] at helides
  have hother : (standing (node :: above)).kept node (handedTo (node :: above)) =
      { node.toAttributes with
        source := ((standing (node :: above)).kept node (handedTo (node :: above))).source
        disposition := if (standing (node :: above)).elides node then .elide else .keep } := rfl
  have hmark := hkeep node List.mem_cons_self
  rw [hother, source_kept hkeep hlinked h, helides, ← hmark]
  cases above with
  | nil => rfl
  | cons parent above =>
      rw [not_cover_of_stays h]
      rfl

theorem isLeft_marks (hkeep : ∀ found ∈ node :: above, found.disposition = .keep)
    (hdropped : isDropped (node :: above) = false) :
    isLeft (marks (node :: above)) = stays (node :: above) := by
  cases above with
  | nil => rw [stays, hdropped]; rfl
  | cons parent above =>
      have helides := elides_standing (hkeep node List.mem_cons_self) (parent :: above)
      have hleft : isLeft (marks (node :: parent :: above)) =
          !(standing (node :: parent :: above)).elides node := by
        change ((if (standing (node :: parent :: above)).elides node then Disposition.elide
          else Disposition.keep) != .elide) = _
        cases (standing (node :: parent :: above)).elides node <;> rfl
      rw [hleft, helides, stays, hdropped, isWrapper]
      simp

theorem spliced_marks {lineage : Lineage} (hkeep : ∀ found ∈ lineage, found.disposition = .keep)
    (hlinked : Linked lineage) (hdropped : isDropped lineage = false) :
    spliced (marks lineage) = chainLeft lineage := by
  induction lineage with
  | nil => rfl
  | cons node above ih =>
      have habove : isDropped above = false := by
        rw [isDropped, Bool.or_eq_false_iff] at hdropped
        exact hdropped.2
      have hrest := ih (fun found hfound => hkeep found (List.mem_cons_of_mem node hfound))
        (List.isChain_of_isChain_cons hlinked) habove
      have hleft := isLeft_marks hkeep hdropped
      rw [marks] at hleft ⊢
      rw [spliced, chainLeft, hleft, hrest]
      cases hstays : stays (node :: above) with
      | false => rfl
      | true => rw [kept_eq_attributesLeft hkeep hlinked hstays]

/-! ## A whole tree -/

theorem stays_root (tree : Node) : stays [tree] = true := by
  simp [stays, isDropped, isWrapper, isInner, isBelowInner]

theorem outline_markLifted (hunmarked : tree.Unmarked) : tree.markLifted.outline =
    (tree.lineages.filter (fun lineage => !isDropped lineage)).map marks := by
  rw [← mark_root]
  exact chains_mark hunmarked (isDropped_of_stays (stays_root tree))

theorem ne_nil_of_mem_lineages (h : lineage ∈ tree.lineages) : lineage ≠ [] := by
  obtain ⟨lower, rfl⟩ := exists_append_of_mem_chains h
  exact List.append_ne_nil_of_right_ne_nil lower (List.cons_ne_nil _ _)

theorem keep_of_mem_lineages (hunmarked : tree.Unmarked) (h : lineage ∈ tree.lineages) :
    ∀ found ∈ lineage, found.disposition = .keep := by
  intro found hfound
  rcases mem_nodes_of_mem_chains h hfound with hnode | hnone
  · exact hunmarked found hnode
  · simp at hnone

theorem isLeft_marks_of_mem_lineages (hunmarked : tree.Unmarked) (h : lineage ∈ tree.lineages)
    (hdropped : isDropped lineage = false) : isLeft (marks lineage) = stays lineage := by
  obtain ⟨node, above, rfl⟩ := List.exists_cons_of_ne_nil (ne_nil_of_mem_lineages h)
  exact isLeft_marks (keep_of_mem_lineages hunmarked h) hdropped

theorem outline_liftElided_markLifted (hunmarked : tree.Unmarked) :
    tree.markLifted.liftElided.outline = (tree.lineages.filter stays).map chainLeft := by
  have hfilter : tree.lineages.filter (fun lineage =>
      (isLeft ∘ marks) lineage && !isDropped lineage) = tree.lineages.filter stays := by
    refine List.filter_congr (fun lineage hlineage => ?_)
    cases hdropped : isDropped lineage with
    | true => simp [stays, hdropped]
    | false => simp [isLeft_marks_of_mem_lineages hunmarked hlineage hdropped]
  rw [outline_liftElided, outline_markLifted hunmarked, List.filter_map, List.map_map,
    List.filter_filter, hfilter]
  refine List.map_congr_left (fun lineage hlineage => ?_)
  obtain ⟨hmem, hstays⟩ := List.mem_filter.1 hlineage
  exact spliced_marks (keep_of_mem_lineages hunmarked hmem) (linked_of_mem_lineages hmem)
    (isDropped_of_stays hstays)

theorem elidedBelow_markLifted (hunmarked : tree.Unmarked) :
    tree.markLifted.elidedBelow = tree.lineages.countP isReplaced := by
  rw [elidedBelow_eq_countP, outline_markLifted hunmarked, List.countP_map, List.countP_filter]
  refine List.countP_congr (fun lineage hlineage => ?_)
  cases hdropped : isDropped lineage with
  | true => simp [isReplaced, hdropped]
  | false =>
      have hleft := isLeft_marks_of_mem_lineages hunmarked hlineage hdropped
      simp [isReplaced, hdropped, hleft, stays]

theorem toAttributes_nodes_of_outline {other : Node}
    (h : other.outline = (tree.lineages.filter stays).map chainLeft) :
    other.nodes.map (fun node => node.toAttributes) =
      (tree.lineages.filter stays).map attributesLeft := by
  have hheads := congrArg (List.map List.head?) h
  rw [outline, map_head?_chains, List.map_map] at hheads
  refine List.map_injective_iff.2 (fun _ _ => Option.some.inj) ?_
  rw [List.map_map, List.map_map]
  refine hheads.trans (List.map_congr_left (fun lineage hlineage => ?_))
  obtain ⟨hmem, hstays⟩ := List.mem_filter.1 hlineage
  obtain ⟨node, above, rfl⟩ := List.exists_cons_of_ne_nil (ne_nil_of_mem_lineages hmem)
  simp [chainLeft, hstays]

/--
In a tree without marks, lifting leaves just the nodes that stay, in document order, and what it
replaces makes room for its children. It counts the nodes that it replaces, and never takes the root
out.
-/
theorem outline_liftEmbeds (hunmarked : tree.Unmarked) :
    tree.liftEmbeds.nodes.map (fun node => node.toAttributes) =
        (tree.lineages.filter stays).map attributesLeft ∧
      tree.liftEmbeds.outline = (tree.lineages.filter stays).map chainLeft ∧
      tree.liftCount = tree.lineages.countP isReplaced ∧ stays [tree] = true :=
  have houtline := outline_liftElided_markLifted hunmarked
  ⟨toAttributes_nodes_of_outline houtline, houtline, elidedBelow_markLifted hunmarked,
    stays_root tree⟩

def embedding (label : String) (children : List Node) : Node :=
  { type := NodeType.embed, source := some { label := some label }, children }

def copiedFigures : Node :=
  .ofType NodeType.root
    [.ofType NodeType.container
      [embedding "inner" [.ofType NodeType.container
        [.ofType NodeType.caption [.text "inner"], .text "picture"]],
        .ofType NodeType.caption [.text "outer"]],
      embedding "plain" [.ofType NodeType.container [.text "table"]]]

/-- Both copies lose their embed, and the first its container and its caption too. -/
theorem copiedFigures_are_lifted :
    copiedFigures.Unmarked ∧ copiedFigures.liftCount = 3 ∧
      copiedFigures.liftEmbeds.nodes.map
          (fun node => (node.type, node.source.bind (·.label), node.value)) =
        [(NodeType.root, none, none), (NodeType.container, some "inner", none),
          (NodeType.text, none, some "picture"), (NodeType.caption, none, none),
          (NodeType.text, none, some "outer"), (NodeType.container, some "plain", none),
          (NodeType.text, none, some "table")] := by
  have hunmarked : copiedFigures.Unmarked := by decide +kernel
  obtain ⟨hnodes, -, hcount, -⟩ := outline_liftEmbeds hunmarked
  refine ⟨hunmarked, hcount.trans (by decide +kernel), ?_⟩
  have hread := congrArg (List.map (fun attributes : Attributes =>
    (attributes.type, attributes.source.bind (·.label), attributes.value))) hnodes
  rw [List.map_map] at hread
  exact hread.trans (by decide +kernel)

def copiedPage : Node := embedding "page" [.ofType NodeType.container [.text "table"]]

/-- Every node stays, and yet the root is not as it was: it has the mark of a wrapper. -/
theorem copiedPage_is_marked :
    let described (node : Node) : Attributes := { node.toAttributes with source := none }
    copiedPage.Unmarked ∧ (∀ lineage ∈ copiedPage.lineages, stays lineage = true) ∧
      copiedPage.liftEmbeds.nodes.map described ≠ copiedPage.nodes.map described := by
  intro described
  refine ⟨by decide +kernel, by decide +kernel, fun hsame => ?_⟩
  have hmarks := congrArg (List.map (·.disposition)) hsame
  exact absurd hmarks (by decide +kernel)

end Lineage

end CrossDoc
