import CrossDoc.Proofs.Index

/-!
# The urls of targets

A page comes by its targets in two ways: it is made a target itself, or a tree of it is enumerated
(`PageTargets.Reachable`). Whatever the order, each of its targets has the url of the page, with the
target's anchor after it unless the target is the page (`PageTargets.Reachable.hasUrls`).
-/

namespace CrossDoc

theorem TargetKind.ofNode?_getD_ne_page (attributes : Attributes) :
    (ofNode? attributes).getD .generic ≠ .page := by
  unfold ofNode?
  split_ifs <;> simp

def Target.urlOn (pageUrl : String) (target : Target) : String :=
  if target.kind = .page then pageUrl else pageUrl ++ "#" ++ target.htmlId

theorem Target.Describes.url_eq_urlOn {target : Target} {pageUrl : String} {node : Node}
    (h : target.Describes pageUrl node) : target.url = target.urlOn pageUrl := by
  have hkind : target.kind ≠ .page := by
    rw [h.kind]
    exact TargetKind.ofNode?_getD_ne_page node.toAttributes
  unfold urlOn
  rw [if_neg hkind]
  exact h.url

namespace PageTargets

variable [Text.Slugger]

/-- What the targets of a page can be: the page itself and targets of trees, added in any order. -/
inductive Reachable : PageTargets → Prop
  | start (file url : String) (numbering : Numbering) : Reachable { file, url, numbering }
  | withFileTarget {page : PageTargets} (label : String) (title : Option String) :
      Reachable page → Reachable (page.withFileTarget label title)
  | enumerate {page : PageTargets} (tree : Node) :
      Reachable page → Reachable (page.enumerate tree).2.page

def HasUrls (page : PageTargets) : Prop :=
  ∀ identifier target, page.targets.get? identifier = some target →
    target.url = target.urlOn page.url

theorem HasUrls.withFileTarget {page : PageTargets} (h : page.HasUrls) (label : String)
    (title : Option String) : (page.withFileTarget label title).HasUrls := by
  unfold PageTargets.withFileTarget
  cases Label.identifier? label with
  | none => exact h
  | some own =>
      intro identifier target htarget
      simp only [SortedMap.get?_insert] at htarget
      by_cases hown : identifier = own
      · rw [if_pos hown] at htarget
        have hsame := Option.some.inj htarget
        rw [← hsame]
        rfl
      · rw [if_neg hown] at htarget
        exact h identifier target htarget

theorem url_enumerate (page : PageTargets) (tree : Node) :
    (page.enumerate tree).2.page.url = page.url := by
  have hrun := Enumeration.visitAll_nodes { page } tree
  obtain ⟨targets, counters, hpage⟩ := Enumeration.visitAll_page { page } tree.nodes
  rw [hrun] at hpage
  have hurl := congrArg PageTargets.url hpage
  exact hurl

theorem HasUrls.enumerate {page : PageTargets} (h : page.HasUrls) (tree : Node) :
    (page.enumerate tree).2.page.HasUrls := by
  let start : Enumeration := { page }
  intro identifier target htarget
  rw [url_enumerate]
  cases hbefore : start.page.targets.get? identifier with
  | none =>
      obtain ⟨node, -, -, hdescribes⟩ := Enumeration.describes_walk hbefore htarget
      exact hdescribes.url_eq_urlOn
  | some known =>
      have hkept := Enumeration.get?_visitAll_of_eq_some hbefore tree.nodes
      rw [Enumeration.visitAll_nodes] at hkept
      have hsame : known = target := Option.some.inj (hkept.symm.trans htarget)
      rw [← hsame]
      exact h identifier known hbefore

theorem Reachable.hasUrls {page : PageTargets} (h : page.Reachable) : page.HasUrls := by
  induction h with
  | start file url numbering =>
      intro identifier target htarget
      rw [SortedMap.get?_empty] at htarget
      exact absurd htarget (by simp)
  | withFileTarget label title _ ih => exact ih.withFileTarget label title
  | enumerate tree _ ih => exact ih.enumerate tree

theorem Reachable.url_eq_of_resolve? {page : PageTargets} (h : page.Reachable)
    {identifier : String} {target : Target} (htarget : page.resolve? identifier = some target) :
    target.url = target.urlOn page.url := by
  obtain ⟨key, hkey⟩ := exists_get?_of_resolve? htarget
  exact h.hasUrls key target hkey

end PageTargets

/-! ## The pages of a project -/

theorem Page.reachable_startTargets [Text.Slugger] (page : Page) (file : String)
    (numbering : Numbering) : (page.startTargets file numbering).Reachable := by
  have hstart := PageTargets.Reachable.start file page.url numbering
  unfold startTargets
  cases page.frontmatter.label with
  | none => exact hstart
  | some label => exact hstart.withFileTarget label page.frontmatter.title

theorem SourceDocument.reachable_of_get?_indexOf [Text.Slugger] {numbering : Numbering}
    {documents : List SourceDocument} {file : String} {found : IndexedPage}
    (h : (indexOf numbering documents).get? file = some found) : found.targets.Reachable := by
  obtain ⟨document, -, -, rfl⟩ := exists_of_get?_indexOf h
  have hstart := document.page.reachable_startTargets document.path numbering
  exact hstart.enumerate document.content

end CrossDoc
