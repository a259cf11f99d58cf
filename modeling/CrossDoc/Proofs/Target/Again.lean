import CrossDoc.Proofs.Target.Numbers

/-!
# Enumerating again

A visit writes into a node what it decides from: a number, an identifier, a label, an anchor. It
decides the same from what it wrote (`visit_again`), so enumerating a tree that has been enumerated,
from where the first enumeration began, gives all that the first one gave (`enumerate_enumerate`).
-/

namespace CrossDoc

namespace Enumeration

variable {state : Enumeration} {node : Node} {identifier : String}

theorem identify_of_identifier {attributes : Attributes}
    (h : attributes.identifier = some identifier) : identify attributes = attributes := by
  unfold identify
  split
  · rename_i hnone _
    exact absurd (h.symm.trans hnone) (by simp)
  · rfl

theorem number_eq (state : Enumeration) (attributes : Attributes) :
    state.number attributes =
      ({ attributes with
          enumerator := (state.page.counters.assign state.page.numbering attributes).1 <|>
            attributes.enumerator },
        { state with
          page := { state.page with
            counters := (state.page.counters.assign state.page.numbering attributes).2 } }) := rfl

/-! ## The three outcomes of a visit -/

variable [Text.Slugger]

theorem visit_of_none (state : Enumeration) (h : node.targetIdentifier? = none) :
    state.visit node = ((state.numbered node).toAttributes, state.counted node) := by
  obtain ⟨-, hvisit⟩ | ⟨other, hsome, -⟩ | ⟨other, hsome, -⟩ := state.visit_cases node
  · exact hvisit
  · exact absurd (h.symm.trans hsome) (by simp)
  · exact absurd (h.symm.trans hsome) (by simp)

theorem visit_of_taken (state : Enumeration)
    (h : node.targetIdentifier? = some identifier)
    (htaken : state.page.contains identifier = true) :
    state.visit node = (identify (state.numbered node).toAttributes,
      { state.counted node with
        found := state.found ++ [duplicate state.page.file identifier
          (identify (state.numbered node).toAttributes)] }) := by
  obtain ⟨hnone, -⟩ | ⟨other, hsome, -, hvisit⟩ | ⟨other, hsome, hfree, -⟩ := state.visit_cases node
  · exact absurd (h.symm.trans hnone) (by simp)
  · obtain rfl : identifier = other := Option.some.inj (h.symm.trans hsome)
    exact hvisit
  · obtain rfl : identifier = other := Option.some.inj (h.symm.trans hsome)
    exact absurd (htaken.symm.trans hfree) (by simp)

theorem visit_of_free (state : Enumeration)
    (h : node.targetIdentifier? = some identifier)
    (hfree : state.page.contains identifier = false) :
    state.visit node = ({ identify (state.numbered node).toAttributes with
        htmlId := some (node.htmlId.getD (Label.anchor identifier)) },
      { state.counted node with
        page := (state.counted node).page.register
          (target (state.counted node).page (state.numbered node) identifier
            (node.htmlId.getD (Label.anchor identifier)))
        registered := state.registered + 1 }) := by
  obtain ⟨hnone, -⟩ | ⟨other, hsome, htaken, -⟩ | ⟨other, hsome, -, hvisit⟩ :=
    state.visit_cases node
  · exact absurd (h.symm.trans hnone) (by simp)
  · obtain rfl : identifier = other := Option.some.inj (h.symm.trans hsome)
    exact absurd (htaken.symm.trans hfree) (by simp)
  · obtain rfl : identifier = other := Option.some.inj (h.symm.trans hsome)
    exact hvisit

/-! ## A node that was visited before -/

theorem identifier_visit (state : Enumeration) (h : node.targetIdentifier? = some identifier) :
    (state.visit node).1.identifier = some identifier := by
  have hown := (identifier_of_targetIdentifier?
    ((state.targetIdentifier?_numbered node).trans h)).2
  cases hcontains : state.page.contains identifier with
  | true =>
      rw [state.visit_of_taken h hcontains]
      exact hown
  | false =>
      rw [state.visit_of_free h hcontains]
      exact hown

theorem assign_visit (counters : Counters) (numbering : Numbering) :
    counters.assign numbering (state.visit node).1 =
      counters.assign numbering node.toAttributes :=
  state.read_visit (fun _ => rfl) node

theorem numbered_again (children : List Node) :
    state.numbered ⟨(state.visit node).1, children⟩ = ⟨(state.visit node).1, children⟩ := by
  have henumerator : ((state.page.counters.assign state.page.numbering node.toAttributes).1 <|>
      (state.visit node).1.enumerator) = (state.visit node).1.enumerator := by
    rw [enumerator_visit]
    cases (state.page.counters.assign state.page.numbering node.toAttributes).1 <;> rfl
  unfold numbered
  rw [number_eq, assign_visit, henumerator]

theorem counted_again (children : List Node) :
    state.counted ⟨(state.visit node).1, children⟩ = state.counted node := by
  unfold counted
  rw [number_eq, number_eq, assign_visit]

theorem target_again {children : List Node}
    (htitle : title? ⟨node.toAttributes, children⟩ = title? node) (page : PageTargets)
    (identifier htmlId : String) :
    target page ⟨(state.visit node).1, children⟩ identifier htmlId =
      target page (state.numbered node) identifier htmlId := by
  obtain ⟨enumerator, hnumbered⟩ := state.numbered_eq node
  have hunnumbered := state.unnumbered_visit node
  have hkind : TargetKind.ofNode? (state.visit node).1 =
      TargetKind.ofNode? (state.numbered node).toAttributes := by
    have hread := congrArg TargetKind.ofNode? hunnumbered
    rw [hnumbered]
    exact hread
  have henumerator : (state.visit node).1.enumerator = (state.numbered node).enumerator :=
    state.enumerator_visit node
  have hsameTitle : title? ⟨(state.visit node).1, children⟩ = title? (state.numbered node) := by
    rw [hnumbered]
    calc
      title? ⟨(state.visit node).1, children⟩ = title? ⟨node.toAttributes, children⟩ :=
        title?_congr (congrArg Attributes.type hunnumbered) (congrArg Attributes.value hunnumbered)
          children
      _ = title? node := htitle
      _ = title? { node with enumerator } := by
        cases node
        exact title?_congr rfl rfl _
  unfold target
  rw [hkind, henumerator, hsameTitle]

/--
A visit of a node that was visited from the same state decides and writes the same, as long as its
children give it the same title.
-/
theorem visit_again {children : List Node}
    (htitle : title? ⟨node.toAttributes, children⟩ = title? node) :
    state.visit ⟨(state.visit node).1, children⟩ = state.visit node := by
  have hsame : (⟨(state.visit node).1, children⟩ : Node).targetIdentifier? =
      node.targetIdentifier? := state.targetIdentifier?_visit node
  cases hidentifier : node.targetIdentifier? with
  | none =>
      have hvisit := state.visit_of_none hidentifier
      rw [state.visit_of_none (hsame.trans hidentifier), numbered_again, counted_again, hvisit]
  | some identifier =>
      have hidentify := identify_of_identifier (state.identifier_visit hidentifier)
      cases hcontains : state.page.contains identifier with
      | true =>
          have hvisit := state.visit_of_taken hidentifier hcontains
          rw [state.visit_of_taken (hsame.trans hidentifier) hcontains, numbered_again,
            counted_again, hidentify, hvisit]
      | false =>
          have hvisit := state.visit_of_free hidentifier hcontains
          have hhtmlId : (state.visit node).1.htmlId =
              some (node.htmlId.getD (Label.anchor identifier)) := by
            rw [hvisit]
          rw [state.visit_of_free (hsame.trans hidentifier) hcontains, numbered_again,
            counted_again, hidentify, hhtmlId, target_again htitle, hvisit]
          rfl

/-! ## A tree -/

private theorem walkAll_again {trees : List Node}
    (h : ∀ tree ∈ trees, ∀ state : Enumeration,
      state.walk (state.walk tree).1 = state.walk tree) (state : Enumeration) :
    state.walkAll (state.walkAll trees).1 = state.walkAll trees := by
  induction trees generalizing state with
  | nil => rfl
  | cons tree rest ih =>
      have htree := h tree (by simp) state
      have hrest := ih (fun other hmem => h other (by simp [hmem])) (state.walk tree).2
      simp only [walkAll]
      rw [htree, hrest]

/-- Walking again over what a walk from the same state gave changes nothing. -/
theorem walk_again (state : Enumeration) (tree : Node) :
    state.walk (state.walk tree).1 = state.walk tree := by
  induction tree using Node.induction generalizing state with
  | node attributes children ih =>
      have hchildren := walkAll_again ih (state.visit ⟨attributes, children⟩).2
      have htitle : title? ⟨attributes,
            (walkAll (state.visit ⟨attributes, children⟩).2 children).1⟩ =
          title? ⟨attributes, children⟩ := by
        have hshape := congrArg Node.children (state.walk_unnumbered ⟨attributes, children⟩)
        refine title?_eq_of_unnumbered ?_
        simpa [walk, Node.mapAttributes, Node.mapAttributesOf_eq_map] using hshape
      have hvisit : state.visit ⟨(state.visit ⟨attributes, children⟩).1,
            (walkAll (state.visit ⟨attributes, children⟩).2 children).1⟩ =
          state.visit ⟨attributes, children⟩ := visit_again htitle
      simp only [walk]
      rw [hvisit, hchildren]

end Enumeration

/--
Enumerating a tree that has been enumerated, from where that enumeration began, changes nothing in
it and gives the same targets, the same count and the same findings.
-/
theorem PageTargets.enumerate_enumerate [Text.Slugger] (page : PageTargets) (tree : Node) :
    page.enumerate (page.enumerate tree).1 = page.enumerate tree :=
  Enumeration.walk_again { page } tree

end CrossDoc
