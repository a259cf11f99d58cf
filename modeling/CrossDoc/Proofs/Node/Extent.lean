import CrossDoc.Proofs.Node.Order
import CrossDoc.Proofs.Node.Section

/-!
# How far a section goes

A heading that is the first target for its identifier denotes a run of its siblings: from itself up
to the next heading that is not deeper, or to the last sibling (`selectTarget_of_isFirst`,
`exists_isSection`). Two such runs among the same siblings are apart, or one is within the other
(`IsSection.nested`).
-/

namespace CrossDoc.Node

/-! ## The first node with a property -/

/-- A path leads to a node with a property, and no path before it in document order does. -/
def IsFirst (p : Node → Bool) (tree : Node) (path : Path) : Prop :=
  (∃ node, tree.at? path = some node ∧ p node = true) ∧
    ∀ before < path, ∀ node, tree.at? before = some node → p node = false

namespace IsFirst

variable {p : Node → Bool} {tree node : Node} {path : Path} {place : Nat}

theorem root_eq_false (h : IsFirst p tree path) (hpath : path ≠ []) : p tree = false := by
  obtain ⟨place, rest, rfl⟩ := List.exists_cons_of_ne_nil hpath
  exact h.2 [] (List.nil_lt_cons place rest) tree rfl

theorem earlier_eq_false (h : IsFirst p tree (place :: path)) :
    ∀ sibling ∈ tree.children.take place, ∀ node ∈ sibling.nodes, p node = false := by
  intro sibling hsibling node hnode
  obtain ⟨earlier, hlt, rfl⟩ := List.mem_take_iff_getElem.1 hsibling
  obtain ⟨below, hbelow⟩ := mem_nodes_iff_exists_at?.1 hnode
  refine h.2 (earlier :: below) (List.cons_lt_cons_iff.2 (Or.inl (by omega))) node ?_
  exact at?_cons_eq_some_iff.2 ⟨_, List.getElem?_eq_getElem _, hbelow⟩

theorem below (h : IsFirst p tree (place :: path)) (hnode : tree.children[place]? = some node) :
    IsFirst p node path := by
  obtain ⟨⟨found, hfound, hp⟩, hbefore⟩ := h
  obtain ⟨child, hchild, hbelow⟩ := at?_cons_eq_some_iff.1 hfound
  obtain rfl := Option.some.inj (hnode.symm.trans hchild)
  refine ⟨⟨found, hbelow, hp⟩, fun before hlt other hother => ?_⟩
  exact hbefore (place :: before) (List.cons_lt_cons_iff.2 (Or.inr ⟨rfl, hlt⟩)) other
    (at?_cons_eq_some_iff.2 ⟨node, hnode, hother⟩)

end IsFirst

theorem isFirst_of_head?_collectPaths {p : Node → Bool} {tree : Node} {path : Path}
    (h : (tree.collectPaths p).head? = some path) : IsFirst p tree path := by
  obtain ⟨others, hpaths⟩ := List.head?_eq_some_iff.1 h
  have hmem : path ∈ tree.collectPaths p := by
    rw [hpaths]
    exact List.mem_cons_self
  refine ⟨(mem_collectPaths_iff.1 hmem).1, fun before hlt node hnode => ?_⟩
  by_contra hp
  obtain ⟨outer, habove, houter⟩ := exists_mem_collectPaths_of_at? hnode (by simpa using hp)
  have hnot : ¬ before < outer := List.not_lt.2 habove.le
  rw [hpaths] at houter
  rcases List.mem_cons.1 houter with rfl | hlater
  · exact hnot hlt
  · have hsorted := pairwise_collectPaths p tree
    rw [hpaths] at hsorted
    exact hnot (List.lt_trans hlt (List.rel_of_pairwise_cons hsorted hlater))

/-! ## What the first target denotes -/

section Denoted

variable {tree parent node : Node} {identifier : String} {path : Path} {place : Nat}

theorem denotedAmong?_append {earlier : List Node}
    (h : ∀ sibling ∈ earlier, ∀ node ∈ sibling.nodes, node.isTargetFor identifier = false)
    (siblings : List Node) :
    denotedAmong? identifier (earlier ++ siblings) = denotedAmong? identifier siblings := by
  induction earlier with
  | nil => rfl
  | cons first rest ih =>
      obtain ⟨hfirst, hbelow⟩ := forall_mem_nodes_iff.1 (h first List.mem_cons_self)
      rw [List.cons_append, denotedAmong?, hfirst, denotedBelow?_eq_none_iff.2 hbelow]
      exact ih (fun sibling hsibling => h sibling (List.mem_cons_of_mem first hsibling))

theorem denotedBelow?_of_child
    (h : IsFirst (fun node => node.isTargetFor identifier) tree (place :: path))
    (hnode : tree.children[place]? = some node) :
    tree.denotedBelow? identifier =
      denotedAmong? identifier (node :: tree.children.drop (place + 1)) := by
  have hsplit : tree.children.take place ++ node :: tree.children.drop (place + 1) =
      tree.children := by
    obtain ⟨hlt, rfl⟩ := List.getElem?_eq_some_iff.1 hnode
    rw [List.getElem_cons_drop, List.take_append_drop]
  have hamong := denotedAmong?_append h.earlier_eq_false (node :: tree.children.drop (place + 1))
  rw [hsplit] at hamong
  cases tree
  exact hamong

theorem denotedBelow?_of_isFirst
    (h : IsFirst (fun node => node.isTargetFor identifier) tree (path ++ [place]))
    (hparent : tree.at? path = some parent) (hnode : parent.children[place]? = some node) :
    tree.denotedBelow? identifier = some (node.denoted (parent.children.drop (place + 1))) := by
  induction path generalizing tree with
  | nil =>
      obtain rfl := Option.some.inj hparent
      obtain ⟨⟨found, hfound, htarget⟩, -⟩ := h.below hnode
      obtain rfl := Option.some.inj hfound
      rw [denotedBelow?_of_child h hnode, denotedAmong?, if_pos htarget]
  | cons step rest ih =>
      obtain ⟨child, hchild, hbelow⟩ := at?_cons_eq_some_iff.1 hparent
      have hfirst := h.below hchild
      have hother : child.isTargetFor identifier = false := hfirst.root_eq_false (by simp)
      rw [denotedBelow?_of_child h hchild, denotedAmong?, hother, ih hfirst hbelow]
      rfl

/-- An identifier denotes what the first target for it denotes among its siblings. -/
theorem selectTarget_of_isFirst
    (h : IsFirst (fun node => node.isTargetFor identifier) tree (path ++ [place]))
    (hparent : tree.at? path = some parent) (hnode : parent.children[place]? = some node) :
    tree.selectTarget identifier = node.denoted (parent.children.drop (place + 1)) := by
  have hroot : tree.isTargetFor identifier = false := h.root_eq_false (by simp)
  unfold selectTarget
  rw [hroot, denotedBelow?_of_isFirst h hparent hnode]
  rfl

end Denoted

/-! ## Sections -/

def Closes (node heading : Node) : Prop :=
  node.is NodeType.heading = true ∧ node.depth.getD 1 ≤ heading.depth.getD 1

theorem endsSection_iff_closes {node heading : Node} :
    node.endsSection heading.headingDepth = true ↔ node.Closes heading := by
  unfold endsSection Closes headingDepth
  rw [Bool.and_eq_true, decide_eq_true_iff]

/--
The siblings from `start` up to `stop` are the section of a heading: it is the first of them, no
later one closes its section, and the next one after them does, if there is one.
-/
structure IsSection (siblings : List Node) (heading : Node) (start stop : Nat) : Prop where
  starts : siblings[start]? = some heading
  isHeading : heading.is NodeType.heading = true
  lt : start < stop
  within : stop ≤ siblings.length
  continues : ∀ place node, start < place → place < stop → siblings[place]? = some node →
    ¬ node.Closes heading
  ends : ∀ node, siblings[stop]? = some node → node.Closes heading

theorem exists_isSection {siblings : List Node} {heading : Node} {start : Nat}
    (hstart : siblings[start]? = some heading) (hheading : heading.is NodeType.heading = true) :
    ∃ stop, IsSection siblings heading start stop ∧
      heading.denoted (siblings.drop (start + 1)) = (siblings.drop start).take (stop - start) := by
  obtain ⟨hlt, hget⟩ := List.getElem?_eq_some_iff.1 hstart
  set count := (siblings.drop (start + 1)).findIdx (endsSection heading.headingDepth) with hcount
  have hle : count ≤ (siblings.drop (start + 1)).length := List.findIdx_le_length
  rw [List.length_drop] at hle
  refine ⟨start + 1 + count, ⟨hstart, hheading, by omega, by omega, ?_, ?_⟩, ?_⟩
  · intro place node hafter hbefore hnode hcloses
    obtain ⟨hplace, rfl⟩ := List.getElem?_eq_some_iff.1 hnode
    have hnot := List.not_of_lt_findIdx (show place - (start + 1) < count by omega)
    simp only [List.getElem_drop, show start + 1 + (place - (start + 1)) = place by omega] at hnot
    rw [endsSection_iff_closes.2 hcloses] at hnot
    simp at hnot
  · intro node hnode
    obtain ⟨hplace, rfl⟩ := List.getElem?_eq_some_iff.1 hnode
    have hfound := List.findIdx_getElem (w := show count < (siblings.drop (start + 1)).length by
      rw [List.length_drop]; omega)
    rw [List.getElem_drop] at hfound
    exact endsSection_iff_closes.1 hfound
  · unfold denoted
    rw [if_pos hheading, List.takeWhile_eq_take_findIdx_not, List.drop_eq_getElem_cons hlt, hget,
      show start + 1 + count - start = count + 1 by omega, List.take_succ_cons]
    simp [hcount]

namespace IsSection

variable {siblings : List Node} {heading other : Node} {start stop start' stop' : Nat}

theorem stop_le_of_closes (h : IsSection siblings heading start stop) {place : Nat} {node : Node}
    (hafter : start < place) (hnode : siblings[place]? = some node)
    (hcloses : node.Closes heading) : stop ≤ place := by
  by_contra hbefore
  exact h.continues place node hafter (Nat.lt_of_not_le hbefore) hnode hcloses

theorem stop_le_of_lt (h : IsSection siblings heading start stop)
    (h' : IsSection siblings other start' stop') (hafter : start < start') (hin : start' < stop) :
    stop' ≤ stop := by
  by_cases hend : stop = siblings.length
  · exact hend ▸ h'.within
  · have hlt : stop < siblings.length := Nat.lt_of_le_of_ne h.within hend
    have hnext : siblings[stop]? = some siblings[stop] := List.getElem?_eq_getElem hlt
    obtain ⟨hheading, hle⟩ := h.ends _ hnext
    have hdeeper : ¬ other.depth.getD 1 ≤ heading.depth.getD 1 := fun hle' =>
      h.continues start' other hafter hin h'.starts ⟨h'.isHeading, hle'⟩
    have hcloses : siblings[stop].Closes other :=
      ⟨hheading, UInt32.le_trans hle (UInt32.le_of_lt (UInt32.not_le.1 hdeeper))⟩
    exact h'.stop_le_of_closes hin hnext hcloses

theorem nested (h : IsSection siblings heading start stop)
    (h' : IsSection siblings other start' stop') :
    stop ≤ start' ∨ stop' ≤ start ∨ start ≤ start' ∧ stop' ≤ stop ∨
      start' ≤ start ∧ stop ≤ stop' := by
  rcases Nat.lt_trichotomy start start' with hlt | heq | hgt
  · by_cases hin : start' < stop
    · exact Or.inr (Or.inr (Or.inl ⟨hlt.le, h.stop_le_of_lt h' hlt hin⟩))
    · exact Or.inl (Nat.le_of_not_lt hin)
  · omega
  · by_cases hin : start < stop'
    · exact Or.inr (Or.inr (Or.inr ⟨hgt.le, h'.stop_le_of_lt h hgt hin⟩))
    · exact Or.inr (Or.inl (Nat.le_of_not_lt hin))

end IsSection

/--
Each heading that is the first target for an identifier denotes its section: the run of its siblings
from itself up to the next heading that is not deeper. Of two sections among the same siblings
neither contains a part of the other only.
-/
theorem selectTarget_sections {tree parent : Node} {path : Path}
    (hparent : tree.at? path = some parent) :
    (∀ start heading identifier, parent.children[start]? = some heading →
      heading.is NodeType.heading = true →
      IsFirst (fun node => node.isTargetFor identifier) tree (path ++ [start]) →
      ∃ stop, IsSection parent.children heading start stop ∧
        tree.selectTarget identifier = (parent.children.drop start).take (stop - start)) ∧
    (∀ heading start stop other start' stop', IsSection parent.children heading start stop →
      IsSection parent.children other start' stop' →
      stop ≤ start' ∨ stop' ≤ start ∨ start ≤ start' ∧ stop' ≤ stop ∨
        start' ≤ start ∧ stop ≤ stop') := by
  constructor
  · intro start heading identifier hstart hheading hfirst
    obtain ⟨stop, hsection, hrun⟩ := exists_isSection hstart hheading
    exact ⟨stop, hsection, (selectTarget_of_isFirst hfirst hparent hstart).trans hrun⟩
  · intro heading start stop other start' stop' h h'
    exact h.nested h'

def skippingOutline : Node :=
  .ofType NodeType.root
    [.ofType NodeType.block
      [{ type := NodeType.heading, identifier := some "methods", depth := some 2 },
       .ofType "paragraph" [.text "Before the data."],
       { type := NodeType.heading, identifier := some "data", depth := some 5 },
       .ofType "paragraph" [.text "After the data."],
       { type := NodeType.heading, identifier := some "results" },
       { type := NodeType.heading, identifier := some "data", depth := some 2 }]]

theorem skippingOutline_sections :
    ∃ parent methods data, skippingOutline.at? [0] = some parent ∧
      IsSection parent.children methods 0 4 ∧ IsSection parent.children data 2 4 ∧
      skippingOutline.selectTarget "methods" = parent.children.take 4 ∧
      skippingOutline.selectTarget "data" = (parent.children.drop 2).take 2 ∧
      (4 ≤ 2 ∨ 4 ≤ 0 ∨ 0 ≤ 2 ∧ 4 ≤ 4 ∨ 2 ≤ 0 ∧ 4 ≤ 4) := by
  have hparent : skippingOutline.at? [0] = some _ := rfl
  obtain ⟨hruns, hnested⟩ := selectTarget_sections hparent
  obtain ⟨stop, hmethods, hrun⟩ := hruns 0 _ "methods" rfl (by decide)
    (isFirst_of_head?_collectPaths (by decide +kernel))
  obtain ⟨stop', hdata, hrun'⟩ := hruns 2 _ "data" rfl (by decide)
    (isFirst_of_head?_collectPaths (by decide +kernel))
  have hlength : (skippingOutline.selectTarget "methods").length = 4 := by decide +kernel
  have hlength' : (skippingOutline.selectTarget "data").length = 2 := by decide +kernel
  rw [hrun, List.length_take, List.length_drop] at hlength
  rw [hrun', List.length_take, List.length_drop] at hlength'
  have hwithin := hmethods.within
  have hwithin' := hdata.within
  obtain rfl : stop = 4 := by omega
  obtain rfl : stop' = 4 := by omega
  exact ⟨_, _, _, hparent, hmethods, hdata, hrun, hrun', hnested _ _ _ _ _ _ hmethods hdata⟩

end CrossDoc.Node
