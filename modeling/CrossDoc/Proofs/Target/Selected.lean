import CrossDoc.CommandLine.Slug
import CrossDoc.Proofs.Node.Section
import CrossDoc.Proofs.Target.Again
import Mathlib.Data.List.Find

/-!
# Targets and what their identifiers denote

Enumeration writes the identifier of every target into its node, so in an enumerated tree a node is
a target for the identifier under which it was visited and for no other (`isTargetFor_walk`). Hence
what an identifier denotes starts with the node that the page knows under it
(`head?_selectTarget_walk`), and it denotes nothing if the page knows none.
-/

namespace CrossDoc

namespace Enumeration

variable [Text.Slugger]

theorem isTargetFor_visit (state : Enumeration) (node : Node) (identifier : String) :
    (state.visit node).1.isTargetFor identifier =
      ((state.visit node).1.targetIdentifier? == some identifier) := by
  have hkept := state.targetIdentifier?_visit node
  cases hown : node.targetIdentifier? with
  | none =>
      rw [hown] at hkept
      rw [hkept]
      cases htarget : (state.visit node).1.isTargetFor identifier with
      | false => rfl
      | true =>
          have hsome := Attributes.targetIdentifier?_of_isTargetFor htarget
          exact absurd (hkept.symm.trans hsome) (by simp)
  | some own =>
      rw [hown] at hkept
      unfold Attributes.isTargetFor
      rw [hkept, state.identifier_visit hown, Attributes.isTarget_of_targetIdentifier? hkept,
        Bool.and_true]

theorem isTargetFor_visitAll (state : Enumeration) (nodes : List Node) (identifier : String) :
    ∀ attributes ∈ (state.visitAll nodes).1,
      attributes.isTargetFor identifier = (attributes.targetIdentifier? == some identifier) := by
  induction nodes generalizing state with
  | nil => simp [visitAll]
  | cons node rest ih =>
      simp only [visitAll, List.forall_mem_cons]
      exact ⟨state.isTargetFor_visit node identifier, ih _⟩

theorem isTargetFor_walk (state : Enumeration) (tree : Node) (identifier : String) :
    ∀ node ∈ (state.walk tree).1.nodes,
      node.isTargetFor identifier = (node.targetIdentifier? == some identifier) := by
  intro node hnode
  have hrun := state.isTargetFor_visitAll tree.nodes identifier
  rw [visitAll_nodes] at hrun
  exact hrun node.toAttributes (List.mem_map_of_mem hnode)

theorem head?_selectTarget_walk (state : Enumeration) (tree : Node) (identifier : String) :
    ((state.walk tree).1.selectTarget identifier).head? =
      (state.walk tree).1.nodes.find?
        (fun node => node.targetIdentifier? == some identifier) := by
  rw [Node.head?_selectTarget]
  exact List.find?_congr (state.isTargetFor_walk tree identifier)

theorem contains_walk_of_find? {state : Enumeration} {tree node : Node} {identifier : String}
    (h : (state.walk tree).1.nodes.find?
      (fun node => node.targetIdentifier? == some identifier) = some node) :
    (state.walk tree).2.page.contains identifier = true := by
  have hidentifiers := state.targetIdentifier?_visitAll tree.nodes
  have hcontains := state.contains_visitAll tree.nodes identifier
  rw [visitAll_nodes] at hidentifiers hcontains
  have hmem : some identifier ∈ tree.nodes.map (fun node => node.targetIdentifier?) := by
    rw [← hidentifiers, List.map_map]
    exact List.mem_map.2 ⟨node, List.mem_of_find?_eq_some h, by simpa using List.find?_some h⟩
  obtain ⟨before, hbefore, hown⟩ := List.mem_map.1 hmem
  exact hcontains.2 (Or.inr ⟨before, hbefore, hown⟩)

/-- The first node with an identifier is described by the target that the page has under it. -/
theorem exists_describes_of_find? {state : Enumeration} {tree node : Node} {identifier : String}
    (hfree : state.page.targets.get? identifier = none)
    (h : (state.walk tree).1.nodes.find?
      (fun node => node.targetIdentifier? == some identifier) = some node) :
    ∃ target, (state.walk tree).2.page.targets.get? identifier = some target ∧
      target.Describes state.page.url node := by
  obtain ⟨target, htarget⟩ := Option.isSome_iff_exists.1 (contains_walk_of_find? h)
  obtain ⟨found, hfound, -, hdescribes⟩ := describes_walk hfree htarget
  obtain rfl := Option.some.inj (h.symm.trans hfound)
  exact ⟨target, htarget, hdescribes⟩

end Enumeration

/--
On a page that is enumerated afresh, an identifier other than that of the page itself has a target
just if it denotes something in the tree; and what it denotes starts with the node that was
registered: the first one with the identifier, which the target describes.
-/
theorem PageTargets.enumerate_selects_registered [Text.Slugger] (page : Page) (file : String)
    (numbering : Numbering) (tree : Node) {identifier : String}
    (hother : page.frontmatter.label.bind Label.identifier? ≠ some identifier) :
    let enumerated := ((page.startTargets file numbering).enumerate tree).1
    let targets := ((page.startTargets file numbering).enumerate tree).2.page
    (targets.contains identifier = true ↔ enumerated.selectTarget identifier ≠ []) ∧
    ∀ target, targets.targets.get? identifier = some target →
      ∃ node following, enumerated.selectTarget identifier = node :: following ∧
        enumerated.nodes.find? (fun node => node.targetIdentifier? == some identifier) =
          some node ∧
        target.identifier = identifier ∧ target.Describes page.url node := by
  intro enumerated targets
  set start : Enumeration := { page := page.startTargets file numbering } with hstart
  have hfree := page.get?_startTargets_of_ne file numbering hother
  have hregistered : ∀ target, targets.targets.get? identifier = some target →
      ∃ node following, enumerated.selectTarget identifier = node :: following ∧
        enumerated.nodes.find? (fun node => node.targetIdentifier? == some identifier) =
          some node ∧
        target.identifier = identifier ∧ target.Describes page.url node := by
    intro target htarget
    obtain ⟨node, hnode, hidentifier, hdescribes⟩ := Enumeration.describes_walk hfree htarget
    have hhead := (start.head?_selectTarget_walk tree identifier).trans hnode
    obtain ⟨following, hselected⟩ := List.head?_eq_some_iff.1 hhead
    rw [page.url_startTargets file numbering] at hdescribes
    exact ⟨node, following, hselected, hnode, hidentifier, hdescribes⟩
  refine ⟨⟨fun hcontains => ?_, fun hselected => ?_⟩, hregistered⟩
  · obtain ⟨target, htarget⟩ := Option.isSome_iff_exists.1 hcontains
    obtain ⟨node, following, hselected, -⟩ := hregistered target htarget
    rw [hselected]
    exact List.cons_ne_nil node following
  · obtain ⟨node, following, hfirst⟩ := List.exists_cons_of_ne_nil hselected
    have hhead := start.head?_selectTarget_walk tree identifier
    rw [show (start.walk tree).1.selectTarget identifier = node :: following from hfirst,
      List.head?_cons, eq_comm] at hhead
    exact Enumeration.contains_walk_of_find? hhead

def labelledPage : Page where
  slug := "a"
  url := "/a"
  frontmatter := { label := some "Whole" }

def labelledFigure : Node :=
  .ofType NodeType.root
    [{ type := NodeType.container, label := some "Fig  One"
       children := [{ type := NodeType.heading, identifier := some "fig one" }] },
     { type := NodeType.math, identifier := some "fig one" }]

theorem labelledFigure_selected :
    labelledPage.frontmatter.label.bind Label.identifier? ≠ some "fig one" ∧
    ∃ target figure following,
      ((labelledPage.startTargets "a.md" {}).enumerate labelledFigure).2.page.targets.get?
        "fig one" = some target ∧
      ((labelledPage.startTargets "a.md" {}).enumerate labelledFigure).1.selectTarget "fig one" =
        figure :: following ∧
      target.kind = .figure ∧ target.Describes "/a" figure := by
  have hother : labelledPage.frontmatter.label.bind Label.identifier? ≠ some "fig one" := by
    decide +kernel
  obtain ⟨-, hregistered⟩ :=
    PageTargets.enumerate_selects_registered labelledPage "a.md" {} labelledFigure hother
  obtain ⟨target, htarget, hkind⟩ := Option.map_eq_some_iff.1 (show
    (((labelledPage.startTargets "a.md" {}).enumerate labelledFigure).2.page.targets.get?
      "fig one").map (·.kind) = some .figure by decide +kernel)
  obtain ⟨figure, following, hselected, -, -, hdescribes⟩ := hregistered target htarget
  exact ⟨hother, target, figure, following, htarget, hselected, hkind, hdescribes⟩

end CrossDoc
