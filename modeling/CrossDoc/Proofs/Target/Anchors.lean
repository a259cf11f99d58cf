import CrossDoc.CommandLine.Slug
import CrossDoc.Proofs.Target.Url
import CrossDoc.Proofs.Text.Slug

/-!
# Anchors that targets share

Identifiers are kept apart on a page, anchors are not: a target has the anchor that its node was
given, or else one made from its identifier, and nothing looks at the anchors of other targets. So
two targets of a page have the same anchor, and with it the same url, just if their nodes say so
(`enumerate_shares_anchor_iff`): they were given the same anchor, or one was given what the other's
identifier makes, or both identifiers have the same slug.
-/

namespace CrossDoc

namespace Attributes

variable [Text.Slugger]

def anchorFor (identifier : String) (attributes : Attributes) : String :=
  attributes.htmlId.getD (Label.anchor identifier)

/-- Whether two nodes that are targets under different identifiers have the same anchor. -/
def SharesAnchor (identifier : String) (attributes : Attributes) (other : String)
    (others : Attributes) : Prop :=
  match attributes.htmlId, others.htmlId with
  | some given, some taken => given = taken
  | some given, none => given = Label.anchor other
  | none, some taken => Label.anchor identifier = taken
  | none, none => Text.slug identifier.toList ≠ [] ∧
      Text.slug identifier.toList = Text.slug other.toList

theorem anchorFor_eq_iff [Text.LawfulSlugger] {identifier other : String} (hne : identifier ≠ other)
    (attributes others : Attributes) :
    attributes.anchorFor identifier = others.anchorFor other ↔
      attributes.SharesAnchor identifier other others := by
  unfold anchorFor SharesAnchor
  cases attributes.htmlId with
  | some given => cases others.htmlId <;> rfl
  | none =>
      cases others.htmlId with
      | some taken => rfl
      | none => exact Label.anchor_eq_iff hne

end Attributes

namespace Enumeration

variable [Text.Slugger] {state : Enumeration} {identifier : String} {target : Target}

theorem htmlId_visit {node : Node} (hfree : state.page.targets.get? identifier = none)
    (h : (state.visit node).2.page.targets.get? identifier = some target) :
    target.htmlId = node.anchorFor identifier := by
  obtain ⟨counters, hcounted⟩ := state.counted_eq node
  obtain ⟨-, hvisit⟩ | ⟨other, -, -, hvisit⟩ | ⟨other, -, -, hvisit⟩ := state.visit_cases node
  · rw [hvisit, hcounted, hfree] at h
    exact absurd h (by simp)
  · rw [hvisit, hcounted] at h
    exact absurd (hfree.symm.trans h) (by simp)
  · rw [hvisit, hcounted] at h
    simp only [PageTargets.register, SortedMap.get?_insert, hfree] at h
    split at h
    · rename_i hsame
      rw [← Option.some.inj h, hsame]
      rfl
    · exact absurd h (by simp)

/-- What a run registers has the anchor that the first node with its identifier asks for. -/
theorem htmlId_visitAll {nodes : List Node} (hfree : state.page.targets.get? identifier = none)
    (h : (state.visitAll nodes).2.page.targets.get? identifier = some target) :
    ∃ node, nodes.find? (fun node => node.targetIdentifier? == some identifier) = some node ∧
      target.htmlId = node.anchorFor identifier := by
  induction nodes generalizing state with
  | nil => exact absurd (hfree.symm.trans h) (by simp)
  | cons node rest ih =>
      cases hvisit : (state.visit node).2.page.targets.get? identifier with
      | some registered =>
          have hkept := get?_visitAll_of_eq_some hvisit rest
          obtain rfl : registered = target := Option.some.inj (hkept.symm.trans h)
          obtain ⟨hown, -⟩ := describes_visit hfree hvisit
          exact ⟨node, by simp [hown], htmlId_visit hfree hvisit⟩
      | none =>
          have hother : node.targetIdentifier? ≠ some identifier := by
            intro hown
            have hcontains := (contains_visit state node identifier).2 (Or.inr hown)
            simp [PageTargets.contains, SortedMap.contains, hvisit] at hcontains
          obtain ⟨first, hfirst, hanchor⟩ := ih hvisit h
          exact ⟨first, by simpa [List.find?_cons, hother] using hfirst, hanchor⟩

end Enumeration

namespace PageTargets

variable [Text.Slugger] {page : Page} {file : String} {numbering : Numbering} {tree : Node}
  {identifier other : String} {target second : Target}

theorem htmlId_enumerate (hpage : page.frontmatter.label.bind Label.identifier? ≠ some identifier)
    (htarget : ((page.startTargets file numbering).enumerate tree).2.page.targets.get? identifier =
      some target) :
    ∃ node, tree.nodes.find? (fun node => node.targetIdentifier? == some identifier) = some node ∧
      target.htmlId = node.anchorFor identifier := by
  let start : Enumeration := { page := page.startTargets file numbering }
  have hrun := start.visitAll_nodes tree
  have hfree : start.page.targets.get? identifier = none :=
    page.get?_startTargets_of_ne file numbering hpage
  have hregistered :
      (start.visitAll tree.nodes).2.page.targets.get? identifier = some target := by
    rw [hrun]
    exact htarget
  exact Enumeration.htmlId_visitAll hfree hregistered

theorem url_enumerate_target
    (hpage : page.frontmatter.label.bind Label.identifier? ≠ some identifier)
    (htarget : ((page.startTargets file numbering).enumerate tree).2.page.targets.get? identifier =
      some target) :
    target.url = page.url ++ "#" ++ target.htmlId := by
  obtain ⟨node, -, -, hdescribes⟩ :=
    Enumeration.describes_walk (page.get?_startTargets_of_ne file numbering hpage) htarget
  rw [← page.url_startTargets file numbering]
  exact hdescribes.url

/--
Two targets of a page that are not the page itself have the same anchor just if the nodes that were
registered for them share one, and the same url just if they have the same anchor.
-/
theorem enumerate_shares_anchor_iff [Text.LawfulSlugger] (hne : identifier ≠ other)
    (hpage : page.frontmatter.label.bind Label.identifier? ≠ some identifier)
    (hother : page.frontmatter.label.bind Label.identifier? ≠ some other)
    (htarget : ((page.startTargets file numbering).enumerate tree).2.page.targets.get? identifier =
      some target)
    (hsecond : ((page.startTargets file numbering).enumerate tree).2.page.targets.get? other =
      some second) :
    ∃ first next,
      tree.nodes.find? (fun node => node.targetIdentifier? == some identifier) = some first ∧
      tree.nodes.find? (fun node => node.targetIdentifier? == some other) = some next ∧
      (target.htmlId = second.htmlId ↔
        first.SharesAnchor identifier other next.toAttributes) ∧
      (target.url = second.url ↔ target.htmlId = second.htmlId) := by
  obtain ⟨first, hfirst, htargetId⟩ := htmlId_enumerate hpage htarget
  obtain ⟨next, hnext, hsecondId⟩ := htmlId_enumerate hother hsecond
  refine ⟨first, next, hfirst, hnext, ?_, ?_⟩
  · rw [htargetId, hsecondId]
    exact Attributes.anchorFor_eq_iff hne first.toAttributes next.toAttributes
  · rw [url_enumerate_target hpage htarget, url_enumerate_target hother hsecond]
    constructor
    · intro hurl
      exact String.append_right_inj _ |>.1 hurl
    · intro hid
      rw [hid]

end PageTargets

def slugTwins : Node :=
  .ofType NodeType.root
    [{ type := NodeType.container, identifier := some "fig:one" },
     { type := NodeType.container, identifier := some "fig-one" }]

theorem slugTwins_share_anchor :
    ∃ target second,
      ((({ slug := "a", url := "/a" } : Page).startTargets "a.md" {}).enumerate
        slugTwins).2.page.targets.get? "fig:one" = some target ∧
      ((({ slug := "a", url := "/a" } : Page).startTargets "a.md" {}).enumerate
        slugTwins).2.page.targets.get? "fig-one" = some second ∧
      target.htmlId = second.htmlId ∧ target.url = second.url := by
  obtain ⟨target, htarget⟩ := Option.isSome_iff_exists.1 (show
    (((({ slug := "a", url := "/a" } : Page).startTargets "a.md" {}).enumerate
      slugTwins).2.page.targets.get? "fig:one").isSome by decide +kernel)
  obtain ⟨second, hsecond⟩ := Option.isSome_iff_exists.1 (show
    (((({ slug := "a", url := "/a" } : Page).startTargets "a.md" {}).enumerate
      slugTwins).2.page.targets.get? "fig-one").isSome by decide +kernel)
  obtain ⟨first, next, hfirst, hnext, hshares, hurls⟩ :=
    PageTargets.enumerate_shares_anchor_iff (by decide) (by decide) (by decide) htarget hsecond
  have hnone : ∀ node ∈ slugTwins.nodes, node.htmlId = none := by decide +kernel
  have hsame : target.htmlId = second.htmlId := by
    rw [hshares]
    unfold Attributes.SharesAnchor
    rw [hnone first (List.mem_of_find?_eq_some hfirst),
      hnone next (List.mem_of_find?_eq_some hnext)]
    decide +kernel
  exact ⟨target, second, htarget, hsecond, hsame, hurls.2 hsame⟩

end CrossDoc
