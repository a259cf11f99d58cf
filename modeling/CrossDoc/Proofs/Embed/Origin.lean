import CrossDoc.Proofs.Embed.Settled
import CrossDoc.Proofs.Embed.Trace

/-!
# Where the nodes of a lifted tree come from

Lifting makes no nodes. Whatever stands at a place in a lifted tree was taken there from some place
in the tree before (`exists_liftedPath?_of_at?_liftEmbeds`), and an embed comes with its source
(`exists_embed_of_at?_liftEmbeds`).
-/

namespace CrossDoc.Node

theorem exists_of_getElem?_flatMap {α β : Type} {f : α → List β} {items : List α} {index : Nat}
    {found : β} (h : (items.flatMap f)[index]? = some found) :
    ∃ place item inner, items[place]? = some item ∧ (f item)[inner]? = some found ∧
      index = ((items.take place).flatMap f).length + inner := by
  induction items generalizing index with
  | nil => simp at h
  | cons first rest ih =>
      rw [List.flatMap_cons] at h
      by_cases hfirst : index < (f first).length
      · rw [List.getElem?_append_left hfirst] at h
        exact ⟨0, first, index, rfl, h, by simp⟩
      · have hle : (f first).length ≤ index := by omega
        rw [List.getElem?_append_right hle] at h
        obtain ⟨place, item, inner, hitem, hfound, hindex⟩ := ih h
        refine ⟨place + 1, item, inner, hitem, hfound, ?_⟩
        rw [List.take_succ_cons, List.flatMap_cons, List.length_append]
        omega

namespace Standing

variable {standing : Standing} {node found : Node} {attributes : Attributes}

theorem offset_eq (place : Nat) : standing.offset node place =
    ((node.children.take place).flatMap (standing.left node)).length :=
  congrArg List.length (flatMap_counted_eq_flatMap_left (node.children.take place))

theorem exists_child_of_at?_liftedBelow {path : Path} (hpath : path ≠ [])
    (h : (Node.of attributes (standing.liftedBelow node)).at? path = some found) :
    ∃ place child below, standing.child? node place = some child ∧
      path = shift (standing.offset node place) below ∧ below ≠ [] ∧
      (Node.of attributes ((standing.below node child.toAttributes).lifted child
        (standing.handed node))).at? below = some found := by
  cases path with
  | nil => exact absurd rfl hpath
  | cons index rest =>
      obtain ⟨first, hfirst, hrest⟩ := at?_cons_eq_some_iff.1 h
      change (standing.liftedBelow node)[index]? = some first at hfirst
      rw [liftedBelow_eq_flatMap_left] at hfirst
      obtain ⟨place, child, inner, hchild, hleft, hindex⟩ := exists_of_getElem?_flatMap hfirst
      unfold left at hleft
      by_cases hdropped : (standing.strips && isCaption child.toAttributes) = true
      · rw [if_pos hdropped] at hleft
        simp at hleft
      · rw [if_neg hdropped] at hleft
        have hstays : (standing.strips && isCaption child.toAttributes) = false := by
          simpa using hdropped
        refine ⟨place, child, inner :: rest, child?_eq_some_iff.2 ⟨hchild, hstays⟩, ?_,
          List.cons_ne_nil inner rest, at?_cons_eq_some_iff.2 ⟨first, hleft, hrest⟩⟩
        rw [shift, offset_eq, hindex]

theorem exists_landing?_of_at?_lifted {source : Option (Option Dependency)} {landing : Path}
    (hlanding : landing ≠ [])
    (h : (Node.of attributes (standing.lifted node source)).at? landing = some found) :
    ∃ path, standing.landing? node path = some landing := by
  -- what a node leaves depends on what is above it, so that varies along the tree
  induction node using Node.induction generalizing standing source landing attributes with
  | node own children ih =>
      have hbelow {others : Attributes} {place : Nat} {child : Node} {below : Path}
          (hchild : standing.child? ⟨own, children⟩ place = some child) (hne : below ≠ [])
          (hat : (Node.of others ((standing.below ⟨own, children⟩ child.toAttributes).lifted child
            (standing.handed ⟨own, children⟩))).at? below = some found) :
          ∃ path, (standing.below ⟨own, children⟩ child.toAttributes).landing? child path =
            some below :=
        ih child (List.mem_of_getElem? (child?_eq_some_iff.1 hchild).1) hne hat
      cases helides : standing.elides ⟨own, children⟩ with
      | true =>
          rw [lifted_of_elides _ _ _ helides] at h
          obtain ⟨place, child, below, hchild, hshift, hne, hat⟩ :=
            exists_child_of_at?_liftedBelow hlanding h
          obtain ⟨path, hpath⟩ := hbelow hchild hne hat
          refine ⟨place :: path, ?_⟩
          rw [landing?, hchild, Option.bind_some, hpath, Option.map_some, helides, if_pos rfl,
            hshift]
      | false =>
          rw [lifted_of_elides_eq_false _ _ _ helides] at h
          cases landing with
          | nil => exact absurd rfl hlanding
          | cons index rest =>
              obtain ⟨first, hfirst, hrest⟩ := at?_cons_eq_some_iff.1 h
              obtain ⟨hindex, hsame⟩ : index = 0 ∧
                  ⟨standing.kept ⟨own, children⟩ source,
                    standing.liftedBelow ⟨own, children⟩⟩ = first := by
                simpa [Node.of, List.getElem?_singleton] using hfirst
              rw [← hsame] at hrest
              by_cases hnil : rest = []
              · refine ⟨[], ?_⟩
                rw [landing?, helides, if_neg Bool.false_ne_true, hindex, hnil]
              · obtain ⟨place, child, below, hchild, hshift, hne, hat⟩ :=
                  exists_child_of_at?_liftedBelow hnil hrest
                obtain ⟨path, hpath⟩ := hbelow hchild hne hat
                refine ⟨place :: path, ?_⟩
                rw [landing?, hchild, Option.bind_some, hpath, Option.map_some, helides,
                  if_neg Bool.false_ne_true, hindex, hshift]

end Standing

variable {tree node : Node} {landing : Path}

/-- Whatever stands in a lifted tree was taken there from the tree before. -/
theorem exists_liftedPath?_of_at?_liftEmbeds (h : tree.liftEmbeds.at? landing = some node) :
    ∃ path, tree.liftedPath? path = some landing := by
  rw [Standing.liftEmbeds_eq] at h
  by_cases hnil : landing = []
  · rw [hnil]
    exact ⟨[], rfl⟩
  · obtain ⟨place, child, below, hchild, hshift, hne, hat⟩ :=
      Standing.exists_child_of_at?_liftedBelow hnil h
    obtain ⟨path, hpath⟩ := Standing.exists_landing?_of_at?_lifted hne hat
    refine ⟨place :: path, ?_⟩
    rw [liftedPath?, hchild, Option.bind_some, hpath, Option.map_some, hshift]

theorem exists_embed_of_at?_liftEmbeds (h : tree.liftEmbeds.at? landing = some node)
    (hembed : node.is NodeType.embed = true) :
    ∃ path found, tree.liftedPath? path = some landing ∧ tree.at? path = some found ∧
      found.is NodeType.embed = true ∧ node.source = found.source := by
  obtain ⟨path, hpath⟩ := exists_liftedPath?_of_at?_liftEmbeds h
  obtain ⟨own, found, given, -, hfound, hgiven, hleft⟩ := at?_liftEmbeds hpath
  have hsame := Option.some.inj (h.symm.trans hleft)
  have hfoundEmbed : found.is NodeType.embed = true := by
    rw [hsame] at hembed
    exact hembed
  have hnone : given = none :=
    hgiven.resolve_right (by simp [Standing.not_container_of_embed hfoundEmbed])
  refine ⟨path, found, hpath, hfound, hfoundEmbed, ?_⟩
  rw [hsame, hnone]
  exact Standing.source_marked_of_embed hfoundEmbed

end CrossDoc.Node
