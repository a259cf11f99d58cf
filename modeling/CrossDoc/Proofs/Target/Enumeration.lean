import CrossDoc.Proofs.Target.Visit

/-!
# Enumerating a page

The walk of the enumeration visits the nodes of a tree one after another in document order, so what
holds of a run follows by induction along that list. `PageTargets.enumerate_registers_first` says
for a page what the identifiers of its targets are, which node each target stands for, how
duplicates are counted, and what the walk leaves alone in the tree.
-/

namespace CrossDoc

variable [Text.Slugger]

namespace Enumeration

/-! ## The walk as a run along a list -/

def visitAll (state : Enumeration) : List Node → List Attributes × Enumeration
  | [] => ([], state)
  | node :: rest =>
    let (attributes, state) := state.visit node
    let (others, state) := visitAll state rest
    (attributes :: others, state)

theorem visitAll_append (state : Enumeration) (nodes others : List Node) :
    state.visitAll (nodes ++ others) =
      ((state.visitAll nodes).1 ++ ((state.visitAll nodes).2.visitAll others).1,
        ((state.visitAll nodes).2.visitAll others).2) := by
  induction nodes generalizing state with
  | nil => rfl
  | cons node rest ih =>
      simp only [List.cons_append, visitAll]
      rw [ih]

private theorem visitAll_flatMap {trees : List Node}
    (h : ∀ tree ∈ trees, ∀ state : Enumeration,
      state.visitAll tree.nodes =
        ((state.walk tree).1.nodes.map Node.toAttributes, (state.walk tree).2))
    (state : Enumeration) :
    state.visitAll (trees.flatMap Node.nodes) =
      (((state.walkAll trees).1.flatMap Node.nodes).map Node.toAttributes,
        (state.walkAll trees).2) := by
  induction trees generalizing state with
  | nil => simp [visitAll, walkAll]
  | cons tree rest ih =>
      rw [List.flatMap_cons, visitAll_append, h tree (by simp),
        ih (fun other hmem => h other (by simp [hmem]))]
      simp [walkAll]

theorem visitAll_nodes (state : Enumeration) (tree : Node) :
    state.visitAll tree.nodes =
      ((state.walk tree).1.nodes.map Node.toAttributes, (state.walk tree).2) := by
  induction tree using Node.induction generalizing state with
  | node attributes children ih =>
      rw [Node.nodes_eq_cons, Node.nodes_eq_cons (state.walk _).1]
      simp only [visitAll, walk, visitAll_flatMap ih, List.map_cons]

/-! ## What the walk leaves alone -/

private theorem walkAll_mapAttributes {f : Attributes → Attributes} {trees : List Node}
    (h : ∀ tree ∈ trees, ∀ state : Enumeration,
      (state.walk tree).1.mapAttributes f = tree.mapAttributes f) (state : Enumeration) :
    (state.walkAll trees).1.map (Node.mapAttributes f) = trees.map (Node.mapAttributes f) := by
  induction trees generalizing state with
  | nil => simp [walkAll]
  | cons tree rest ih =>
      simp only [walkAll, List.map_cons]
      rw [h tree (by simp), ih (fun other hmem => h other (by simp [hmem]))]

/-- The walk keeps the shape of a tree and all it does not write. -/
theorem walk_unnumbered (state : Enumeration) (tree : Node) :
    (state.walk tree).1.mapAttributes Attributes.unnumbered =
      tree.mapAttributes Attributes.unnumbered := by
  induction tree using Node.induction generalizing state with
  | node attributes children ih =>
      simp only [walk, Node.mapAttributes, Node.mapAttributesOf_eq_map]
      rw [walkAll_mapAttributes ih, unnumbered_visit]

/-! ## What a run registers -/

theorem visitAll_page (state : Enumeration) (nodes : List Node) :
    ∃ targets counters,
      (state.visitAll nodes).2.page = { state.page with targets, counters } := by
  induction nodes generalizing state with
  | nil => exact ⟨_, _, rfl⟩
  | cons node rest ih =>
      obtain ⟨targets, counters, hvisit⟩ := state.visit_page node
      obtain ⟨targets', counters', hrest⟩ := ih (state.visit node).2
      refine ⟨targets', counters', ?_⟩
      simp only [visitAll]
      rw [hrest, hvisit]

theorem get?_visitAll_of_eq_some {state : Enumeration} {identifier : String} {target : Target}
    (h : state.page.targets.get? identifier = some target) (nodes : List Node) :
    (state.visitAll nodes).2.page.targets.get? identifier = some target := by
  induction nodes generalizing state with
  | nil => exact h
  | cons node rest ih => exact ih (get?_visit_of_eq_some h node)

theorem contains_visitAll (state : Enumeration) (nodes : List Node) (identifier : String) :
    (state.visitAll nodes).2.page.contains identifier = true ↔
      state.page.contains identifier = true ∨
        ∃ node ∈ nodes, node.targetIdentifier? = some identifier := by
  induction nodes generalizing state with
  | nil => simp [visitAll]
  | cons node rest ih =>
      simp only [visitAll]
      rw [ih, contains_visit]
      simp [or_assoc]

theorem targetIdentifier?_visitAll (state : Enumeration) (nodes : List Node) :
    (state.visitAll nodes).1.map Attributes.targetIdentifier? =
      nodes.map (fun node => node.targetIdentifier?) := by
  induction nodes generalizing state with
  | nil => rfl
  | cons node rest ih =>
      simp only [visitAll, List.map_cons]
      rw [ih, targetIdentifier?_visit]

theorem counted_visitAll (state : Enumeration) (nodes : List Node) :
    (state.visitAll nodes).2.registered +
        (state.visitAll nodes).2.found.countP Diagnostic.isDuplicate =
      state.registered + state.found.countP Diagnostic.isDuplicate +
        nodes.countP (fun node => node.targetIdentifier?.isSome) := by
  induction nodes generalizing state with
  | nil => rfl
  | cons node rest ih =>
      simp only [visitAll]
      rw [ih, counted_visit, List.countP_cons]
      omega

theorem describes_visitAll {state : Enumeration} (nodes : List Node) {identifier : String}
    {target : Target} (hfree : state.page.targets.get? identifier = none)
    (h : (state.visitAll nodes).2.page.targets.get? identifier = some target) :
    ∃ (place : Nat) (node : Node) (attributes : Attributes), nodes[place]? = some node ∧
      (state.visitAll nodes).1[place]? = some attributes ∧
      attributes.targetIdentifier? = some identifier ∧ target.identifier = identifier ∧
      (∀ before < place, ∀ other : Attributes,
        (state.visitAll nodes).1[before]? = some other →
          other.targetIdentifier? ≠ some identifier) ∧
      target.Describes state.page.url ⟨attributes, node.children⟩ := by
  induction nodes generalizing state with
  | nil =>
      simp only [visitAll] at h
      rw [hfree] at h
      simp at h
  | cons node rest ih =>
      simp only [visitAll] at h ⊢
      cases hvisit : (state.visit node).2.page.targets.get? identifier with
      | some registered =>
          rw [get?_visitAll_of_eq_some hvisit, Option.some.injEq] at h
          obtain ⟨hsome, htarget, hdescribes⟩ := describes_visit hfree (h ▸ hvisit)
          exact ⟨0, node, (state.visit node).1, rfl, rfl,
            (state.targetIdentifier?_visit node).trans hsome, htarget, by simp, hdescribes⟩
      | none =>
          obtain ⟨place, found, attributes, hnode, hattributes, hsome, htarget, hfirst,
            hdescribes⟩ := ih hvisit h
          obtain ⟨targets, counters, hpage⟩ := state.visit_page node
          rw [hpage] at hdescribes
          refine ⟨place + 1, found, attributes, hnode, hattributes, hsome, htarget, ?_,
            hdescribes⟩
          intro before hbefore other hother
          cases before with
          | zero =>
              obtain rfl : (state.visit node).1 = other := by simpa using hother
              intro hown
              have hcontains := (contains_visit state node identifier).2
                (Or.inr ((state.targetIdentifier?_visit node).symm.trans hown))
              simp [PageTargets.contains, SortedMap.contains, hvisit] at hcontains
          | succ before =>
              exact hfirst before (by omega) other (by simpa using hother)

theorem describes_walk {state : Enumeration} {tree : Node} {identifier : String}
    {target : Target} (hfree : state.page.targets.get? identifier = none)
    (h : (state.walk tree).2.page.targets.get? identifier = some target) :
    ∃ node, (state.walk tree).1.nodes.find?
        (fun node => node.targetIdentifier? == some identifier) = some node ∧
      target.identifier = identifier ∧ target.Describes state.page.url node := by
  have hrun := state.visitAll_nodes tree
  obtain ⟨place, before, attributes, hbefore, hattributes, hown, htarget, hfirst, hdescribes⟩ :=
    describes_visitAll tree.nodes hfree (by rw [hrun]; exact h)
  rw [hrun] at hattributes hfirst
  obtain ⟨node, hnode, rfl⟩ : ∃ node, (state.walk tree).1.nodes[place]? = some node ∧
      node.toAttributes = attributes := by simpa using hattributes
  refine ⟨node, ?_, htarget, ?_⟩
  · obtain ⟨hplace, hnode⟩ := List.getElem?_eq_some_iff.1 hnode
    refine List.find?_eq_some_iff_getElem.2 ⟨by simpa using hown, place, hplace, hnode, ?_⟩
    intro earlier hearlier
    have hlt : earlier < (state.walk tree).1.nodes.length := by omega
    simpa using hfirst earlier hearlier ((state.walk tree).1.nodes[earlier]).toAttributes
      (by simp [List.getElem?_eq_getElem hlt])
  · have hsame : node.mapAttributes Attributes.unnumbered =
        before.mapAttributes Attributes.unnumbered := by
      have hnodes : (state.walk tree).1.nodes.map (Node.mapAttributes Attributes.unnumbered) =
          tree.nodes.map (Node.mapAttributes Attributes.unnumbered) := by
        rw [← Node.nodes_mapAttributes, ← Node.nodes_mapAttributes, walk_unnumbered]
      have hat := congrArg (fun nodes => nodes[place]?) hnodes
      simpa [hnode, hbefore] using hat
    have hattributes : node.toAttributes.unnumbered = before.toAttributes.unnumbered := by
      simpa using congrArg Node.toAttributes hsame
    have htitle : title? ⟨node.toAttributes, before.children⟩ = title? node := by
      rw [title?_eq_of_unnumbered hsame]
      cases before
      have htype := congrArg Attributes.type hattributes
      have hvalue := congrArg Attributes.value hattributes
      exact title?_congr htype hvalue _
    exact { hdescribes with title := hdescribes.title.trans htitle }

end Enumeration

/-! ## A page -/

namespace Page

variable (page : Page) (file : String) (numbering : Numbering)

theorem startTargets_cases :
    (page.frontmatter.label.bind Label.identifier? = none ∧
      page.startTargets file numbering = { file, url := page.url, numbering }) ∨
    (∃ identifier, page.frontmatter.label.bind Label.identifier? = some identifier ∧
      page.startTargets file numbering =
        { file, url := page.url, numbering
          targets := (∅ : SortedMap Target).insert identifier
            { identifier, kind := .page, htmlId := Label.anchor identifier, url := page.url
              title := page.frontmatter.title }
          fileTarget := some identifier }) := by
  unfold startTargets PageTargets.withFileTarget
  cases page.frontmatter.label with
  | none => exact Or.inl ⟨rfl, rfl⟩
  | some label =>
      cases h : Label.identifier? label with
      | none => exact Or.inl ⟨h, by simp [h]⟩
      | some identifier => exact Or.inr ⟨identifier, h, by simp [h]⟩

theorem file_startTargets : (page.startTargets file numbering).file = file := by
  obtain ⟨-, h⟩ | ⟨identifier, -, h⟩ := page.startTargets_cases file numbering <;> rw [h]

theorem url_startTargets : (page.startTargets file numbering).url = page.url := by
  obtain ⟨-, h⟩ | ⟨identifier, -, h⟩ := page.startTargets_cases file numbering <;> rw [h]

theorem fileTarget_startTargets :
    (page.startTargets file numbering).fileTarget =
      page.frontmatter.label.bind Label.identifier? := by
  obtain ⟨hlabel, h⟩ | ⟨identifier, hlabel, h⟩ := page.startTargets_cases file numbering <;>
    rw [h, hlabel]

theorem contains_startTargets (identifier : String) :
    (page.startTargets file numbering).contains identifier = true ↔
      page.frontmatter.label.bind Label.identifier? = some identifier := by
  unfold PageTargets.contains
  obtain ⟨hlabel, h⟩ | ⟨own, hlabel, h⟩ := page.startTargets_cases file numbering
  · rw [h, hlabel]
    simp
  · rw [h, hlabel, SortedMap.contains_insert, SortedMap.contains_empty, Bool.or_false,
      decide_eq_true_iff, Option.some.injEq, eq_comm]

theorem get?_startTargets_of_ne {identifier : String}
    (h : page.frontmatter.label.bind Label.identifier? ≠ some identifier) :
    (page.startTargets file numbering).targets.get? identifier = none := by
  have hfree := mt (page.contains_startTargets file numbering identifier).1 h
  simpa [PageTargets.contains, SortedMap.contains] using hfree

theorem isKeyed_startTargets : (page.startTargets file numbering).IsKeyed := by
  intro identifier target htarget
  obtain ⟨-, h⟩ | ⟨own, -, h⟩ := page.startTargets_cases file numbering
  · rw [h] at htarget
    simp at htarget
  · rw [h, SortedMap.get?_insert, SortedMap.get?_empty] at htarget
    split at htarget
    · rename_i heq
      exact Option.some.inj htarget ▸ heq.symm
    · simp at htarget

end Page

theorem Enumeration.isKeyed_walk {state : Enumeration} (hkeyed : state.page.IsKeyed)
    (tree : Node) : (state.walk tree).2.page.IsKeyed := by
  intro identifier target htarget
  cases hbefore : state.page.targets.get? identifier with
  | none =>
      obtain ⟨-, -, hidentifier, -⟩ := describes_walk hbefore htarget
      exact hidentifier
  | some found =>
      have hkept := get?_visitAll_of_eq_some hbefore tree.nodes
      rw [visitAll_nodes] at hkept
      exact hkeyed identifier target (Option.some.inj (hkept.symm.trans htarget) ▸ hbefore)

open Enumeration in
/--
The targets of an enumerated page are the page itself, where it has a label, and its nodes by their
identifiers. Each identifier belongs to the first node that has it; every later one is reported. The
tree keeps everything but numbers, identifiers, labels and anchors.
-/
theorem PageTargets.enumerate_registers_first (page : Page) (file : String)
    (numbering : Numbering) (tree : Node) :
    let fileTarget := page.frontmatter.label.bind Label.identifier?
    let enumerated := ((page.startTargets file numbering).enumerate tree).1
    let state := ((page.startTargets file numbering).enumerate tree).2
    state.page.fileTarget = fileTarget ∧
    (∀ identifier, state.page.contains identifier = true ↔
      fileTarget = some identifier ∨
        ∃ node ∈ tree.nodes, node.targetIdentifier? = some identifier) ∧
    (∀ identifier target, fileTarget ≠ some identifier →
      state.page.targets.get? identifier = some target →
      ∃ node, enumerated.nodes.find? (fun node => node.targetIdentifier? == some identifier) =
          some node ∧
        target.identifier = identifier ∧ target.Describes page.url node) ∧
    enumerated.nodes.map (fun node => node.targetIdentifier?) =
      tree.nodes.map (fun node => node.targetIdentifier?) ∧
    state.registered + state.found.countP Diagnostic.isDuplicate =
      tree.nodes.countP (fun node => node.targetIdentifier?.isSome) ∧
    enumerated.mapAttributes Attributes.unnumbered =
      tree.mapAttributes Attributes.unnumbered := by
  intro fileTarget enumerated state
  set start : Enumeration := { page := page.startTargets file numbering } with hstart
  have hrun : start.visitAll tree.nodes = (enumerated.nodes.map Node.toAttributes, state) :=
    start.visitAll_nodes tree
  have hshape : enumerated.mapAttributes Attributes.unnumbered =
      tree.mapAttributes Attributes.unnumbered := start.walk_unnumbered tree
  have hidentifiers : enumerated.nodes.map (fun node => node.targetIdentifier?) =
      tree.nodes.map (fun node => node.targetIdentifier?) := by
    have h := start.targetIdentifier?_visitAll tree.nodes
    rw [hrun, List.map_map] at h
    exact h
  refine ⟨?_, ?_, ?_, hidentifiers, ?_, hshape⟩
  · obtain ⟨targets, counters, hpage⟩ := start.visitAll_page tree.nodes
    rw [hrun] at hpage
    rw [show state.page = _ from hpage]
    exact page.fileTarget_startTargets file numbering
  · intro identifier
    have h := start.contains_visitAll tree.nodes identifier
    rw [hrun] at h
    rw [h, show start.page = page.startTargets file numbering from rfl,
      page.contains_startTargets file numbering]
  · intro identifier target hother htarget
    rw [← page.url_startTargets file numbering]
    exact describes_walk (page.get?_startTargets_of_ne file numbering hother) htarget
  · have h := start.counted_visitAll tree.nodes
    rw [hrun] at h
    simpa [hstart] using h

end CrossDoc
