import CrossDoc.Proofs.Node.Walk
import CrossDoc.Proofs.SortedMap
import CrossDoc.Target.Enumeration
import CrossDoc.Target.PageTargets

/-!
# Targets of a page, and enumerating one node

A page whose targets stand under their own identifiers (`IsKeyed`) gives back a target when it is
asked for that target's identifier, whichever way the target was found first.

`visit_cases` lists all that one visit of the enumeration can do to a node and to the targets of its
page; everything else about a visit follows from it:

* a visit writes numbers, identifiers, labels and anchors only (`unnumbered_visit`);
* it adds at most one target, under an identifier that was free (`targets_visit`), and that target
  agrees with the node as it leaves the visit (`describes_visit`);
* it counts each node with an identifier once, as registered or as a duplicate (`counted_visit`).
-/

namespace CrossDoc

/-! ## Looking up on a page -/

namespace PageTargets

/-- Every target of a page stands under its own identifier. -/
def IsKeyed (page : PageTargets) : Prop :=
  ∀ identifier target, page.targets.get? identifier = some target →
    target.identifier = identifier

theorem exists_get?_of_resolve? {page : PageTargets} {identifier : String} {target : Target}
    (h : page.resolve? identifier = some target) :
    ∃ key, page.targets.get? key = some target := by
  unfold resolve? at h
  cases hget : page.targets.get? identifier with
  | some found =>
      rw [hget] at h
      exact ⟨identifier, hget.trans h⟩
  | none =>
      rw [hget] at h
      exact SortedMap.mem_values.1 (List.mem_of_find?_eq_some h)

theorem resolve?_of_get? {page : PageTargets} {identifier : String} {target : Target}
    (h : page.targets.get? identifier = some target) :
    page.resolve? identifier = some target := by
  unfold resolve?
  rw [h]
  rfl

theorem resolve?_identifier {page : PageTargets} (hkeyed : page.IsKeyed) {identifier : String}
    {target : Target} (h : page.resolve? identifier = some target) :
    page.resolve? target.identifier = some target := by
  obtain ⟨key, hkey⟩ := exists_get?_of_resolve? h
  exact resolve?_of_get? (hkeyed key target hkey ▸ hkey)

theorem get?_eq_none_of_identifier_ne {page : PageTargets} (hkeyed : page.IsKeyed)
    {identifier : String} {target : Target} (h : page.resolve? identifier = some target)
    (hne : target.identifier ≠ identifier) : page.targets.get? identifier = none := by
  cases hget : page.targets.get? identifier with
  | none => rfl
  | some found =>
      have hresolved := resolve?_of_get? hget
      have hsame : found = target := Option.some.inj (hresolved.symm.trans h)
      exact absurd (hsame ▸ hkeyed identifier found hget) hne

end PageTargets

/-! ## Nodes that are targets -/

namespace Attributes

/-- The identifier under which a node is a target: its own, or else the one of its label. -/
def targetIdentifier? (attributes : Attributes) : Option String :=
  if attributes.isTarget then
    attributes.identifier <|> attributes.label.bind Label.identifier?
  else none

/-- The attributes without those that enumeration writes. -/
def unnumbered (attributes : Attributes) : Attributes :=
  { attributes with enumerator := none, identifier := none, label := none, htmlId := none }

variable {attributes : Attributes} {identifier : String}

theorem isTarget_of_targetIdentifier? (h : attributes.targetIdentifier? = some identifier) :
    attributes.isTarget = true := by
  unfold targetIdentifier? at h
  by_cases htarget : attributes.isTarget = true
  · exact htarget
  · rw [if_neg htarget] at h
    exact absurd h (by simp)

theorem targetIdentifier?_of_isTargetFor (h : attributes.isTargetFor identifier = true) :
    attributes.targetIdentifier? = some identifier := by
  unfold isTargetFor at h
  obtain ⟨hidentifier, htarget⟩ := Bool.and_eq_true_iff.1 h
  have hsame : attributes.identifier = some identifier := by simpa using hidentifier
  unfold targetIdentifier?
  rw [if_pos htarget, hsame]
  rfl

end Attributes

def Diagnostic.isDuplicate (finding : Diagnostic) : Bool :=
  finding.rule == .referenceTargetUnique && finding.severity == .error

/-- A target is what the page at `url` knows of one of its nodes. -/
structure Target.Describes (target : Target) (url : String) (node : Node) : Prop where
  identifier : node.identifier = some target.identifier
  htmlId : node.htmlId = some target.htmlId
  enumerator : target.enumerator = node.enumerator
  kind : target.kind = (TargetKind.ofNode? node.toAttributes).getD .generic
  title : target.title = Enumeration.title? node
  url : target.url = url ++ "#" ++ target.htmlId
  dataUrl : target.dataUrl = none

theorem Target.Describes.isTargetFor {target : Target} {url : String} {node : Node}
    (h : target.Describes url node)
    (hidentifier : node.targetIdentifier? = some target.identifier) :
    node.isTargetFor target.identifier = true := by
  have htarget := Attributes.isTarget_of_targetIdentifier? hidentifier
  unfold Attributes.isTargetFor
  rw [h.identifier, htarget]
  simp

namespace Enumeration

/-! ## Titles -/

theorem title?_mapAttributes {f : Attributes → Attributes}
    (htype : ∀ attributes, (f attributes).type = attributes.type)
    (hvalue : ∀ attributes, (f attributes).value = attributes.value) (node : Node) :
    title? (node.mapAttributes f) = title? node := by
  have his : ∀ (other : Node) (type : String),
      (other.mapAttributes f).is type = other.is type := by
    intro other type
    simp [Attributes.is, htype]
  have hfind : (node.mapAttributes f).children.find? (fun child => child.is NodeType.caption) =
      (node.children.find? (fun child => child.is NodeType.caption)).map
        (Node.mapAttributes f) := by
    simp only [Node.children_mapAttributes, List.find?_map, Function.comp_def, his]
  unfold title?
  simp only [his, hfind, Node.plainText_mapAttributes hvalue, Option.map_map,
    Function.comp_def]

theorem title?_congr {attributes others : Attributes}
    (htype : attributes.type = others.type) (hvalue : attributes.value = others.value)
    (children : List Node) :
    title? ⟨attributes, children⟩ = title? ⟨others, children⟩ := by
  simp only [title?, Attributes.is, Node.plainText, htype, hvalue]
  rfl

theorem title?_eq_of_unnumbered {node other : Node}
    (h : node.mapAttributes Attributes.unnumbered = other.mapAttributes Attributes.unnumbered) :
    title? node = title? other := by
  have hkeep : ∀ node : Node, title? (node.mapAttributes Attributes.unnumbered) = title? node :=
    title?_mapAttributes (fun _ => rfl) (fun _ => rfl)
  rw [← hkeep node, h, hkeep]

/-! ## Identities -/

theorem identify_isTarget (attributes : Attributes) :
    (identify attributes).isTarget = attributes.isTarget := by
  unfold identify
  split
  · rename_i normal hnone hlabel
    obtain ⟨label, hlabel, -⟩ := Option.bind_eq_some_iff.1 hlabel
    simp [Attributes.isTarget, hlabel]
  · rfl

theorem identify_identifier (attributes : Attributes) :
    (identify attributes).identifier =
      (attributes.identifier <|> attributes.label.bind Label.identifier?) := by
  unfold identify
  cases hidentifier : attributes.identifier with
  | some identifier => simp [hidentifier]
  | none =>
      cases hlabel : attributes.label with
      | none => simp [hidentifier]
      | some label =>
          cases hnormal : Label.normalize? label with
          | none => simp [hidentifier, hnormal, Label.identifier?]
          | some normal => simp [hnormal, Label.identifier?]

theorem identify_eq (attributes : Attributes) :
    ∃ identifier label, identify attributes = { attributes with identifier, label } := by
  unfold identify
  split
  · exact ⟨_, _, rfl⟩
  · exact ⟨_, _, rfl⟩

theorem identify_unnumbered (attributes : Attributes) :
    (identify attributes).unnumbered = attributes.unnumbered := by
  obtain ⟨identifier, label, h⟩ := identify_eq attributes
  rw [h]
  rfl

theorem identify_htmlId (attributes : Attributes) :
    (identify attributes).htmlId = attributes.htmlId := by
  obtain ⟨identifier, label, h⟩ := identify_eq attributes
  rw [h]

theorem identify_of_identifier_none {attributes : Attributes}
    (h : (identify attributes).identifier = none) : identify attributes = attributes := by
  unfold identify at h ⊢
  split
  · rename_i hlabel
    rw [hlabel] at h
    simp_all
  · rfl

/-! ## One visit -/

def numbered (state : Enumeration) (node : Node) : Node :=
  ⟨(state.number node.toAttributes).1, node.children⟩

/-- The state in which a node is registered: it has been counted, and nothing else. -/
def counted (state : Enumeration) (node : Node) : Enumeration :=
  (state.number node.toAttributes).2

theorem numbered_eq (state : Enumeration) (node : Node) :
    ∃ enumerator, state.numbered node = { node with enumerator } :=
  ⟨_, rfl⟩

theorem counted_eq (state : Enumeration) (node : Node) :
    ∃ counters, state.counted node = { state with page := { state.page with counters } } :=
  ⟨_, rfl⟩

/--
A visit leaves a node without an identifier as it is but for its number; reports a node whose
identifier is taken; and registers any other node.
-/
theorem visit_cases [Text.Slugger] (state : Enumeration) (node : Node) :
    (node.targetIdentifier? = none ∧
      state.visit node = ((state.numbered node).toAttributes, state.counted node)) ∨
    (∃ identifier, node.targetIdentifier? = some identifier ∧
      state.page.contains identifier = true ∧
      state.visit node =
        (identify (state.numbered node).toAttributes,
          { state.counted node with
            found := state.found ++
              [duplicate state.page.file identifier
                (identify (state.numbered node).toAttributes)] })) ∨
    (∃ identifier, node.targetIdentifier? = some identifier ∧
      state.page.contains identifier = false ∧
      state.visit node =
        ({ identify (state.numbered node).toAttributes with
            htmlId := some (node.htmlId.getD (Label.anchor identifier)) },
          { state.counted node with
            page := (state.counted node).page.register
              (target (state.counted node).page (state.numbered node) identifier
                (node.htmlId.getD (Label.anchor identifier)))
            registered := state.registered + 1 })) := by
  obtain ⟨enumerator, hnumbered⟩ := state.numbered_eq node
  obtain ⟨counters, hcounted⟩ := state.counted_eq node
  have htarget : (state.numbered node).isTarget = node.isTarget := by rw [hnumbered]; rfl
  have hidentifier : (identify (state.numbered node).toAttributes).identifier =
      (node.identifier <|> node.label.bind Label.identifier?) := by
    rw [identify_identifier, hnumbered]
  have hhtmlId : (identify (state.numbered node).toAttributes).htmlId = node.htmlId := by
    rw [identify_htmlId, hnumbered]
  have hcontains : ∀ identifier, (state.counted node).page.contains identifier =
      state.page.contains identifier := by rw [hcounted]; intro identifier; rfl
  -- numbering comes first, but decides neither whether the node is a target nor which one
  have hvisit : state.visit node = (state.counted node).register (state.numbered node) := rfl
  rw [hvisit, Attributes.targetIdentifier?]
  unfold register
  rw [htarget]
  cases his : node.isTarget with
  | false => exact Or.inl ⟨by simp, by simp⟩
  | true =>
      simp only [Bool.not_true, Bool.false_eq_true, if_false, if_true]
      rw [← hidentifier]
      cases hid : (identify (state.numbered node).toAttributes).identifier with
      | none =>
          refine Or.inl ⟨rfl, ?_⟩
          simp only [identify_of_identifier_none hid]
      | some identifier =>
          simp only [hcontains]
          cases htaken : state.page.contains identifier with
          | true =>
              refine Or.inr (Or.inl ⟨identifier, rfl, htaken, ?_⟩)
              rw [hcounted]
              simp
          | false =>
              refine Or.inr (Or.inr ⟨identifier, rfl, htaken, ?_⟩)
              rw [hcounted, hhtmlId]
              simp

/-! ## The node after a visit -/

theorem identifier_of_targetIdentifier? {attributes : Attributes} {identifier : String}
    (h : attributes.targetIdentifier? = some identifier) :
    attributes.isTarget = true ∧ (identify attributes).identifier = some identifier := by
  unfold Attributes.targetIdentifier? at h
  split at h
  · rename_i his
    exact ⟨his, by rw [identify_identifier, h]⟩
  · simp at h

theorem targetIdentifier?_identify {attributes : Attributes} {identifier : String}
    (h : attributes.targetIdentifier? = some identifier) (htmlId : Option String) :
    ({ identify attributes with htmlId } : Attributes).targetIdentifier? = some identifier := by
  obtain ⟨his, hidentifier⟩ := identifier_of_targetIdentifier? h
  have hpointing : NodeType.pointing.contains (identify attributes).type = false := by
    rw [← identify_isTarget, Attributes.isTarget] at his
    simpa only [Bool.not_eq_true'] using (Bool.and_eq_true_iff.1 his).2
  simp only [Attributes.targetIdentifier?, Attributes.isTarget, hidentifier, hpointing,
    Option.isSome_some, Bool.true_or, Bool.not_false, Bool.and_true, if_true]
  rfl

theorem targetIdentifier?_numbered (state : Enumeration) (node : Node) :
    (state.numbered node).targetIdentifier? = node.targetIdentifier? := by
  obtain ⟨enumerator, hnumbered⟩ := state.numbered_eq node
  rw [hnumbered]
  rfl

theorem targetIdentifier?_visit [Text.Slugger] (state : Enumeration) (node : Node) :
    (state.visit node).1.targetIdentifier? = node.targetIdentifier? := by
  have hnumbered := state.targetIdentifier?_numbered node
  obtain ⟨hnone, hvisit⟩ | ⟨identifier, hsome, -, hvisit⟩ | ⟨identifier, hsome, -, hvisit⟩ :=
    state.visit_cases node
  · rw [hvisit, hnumbered]
  · rw [hvisit, hsome]
    exact targetIdentifier?_identify (hnumbered.trans hsome) _
  · rw [hvisit, hsome]
    exact targetIdentifier?_identify (hnumbered.trans hsome) _

theorem unnumbered_visit [Text.Slugger] (state : Enumeration) (node : Node) :
    (state.visit node).1.unnumbered = node.toAttributes.unnumbered := by
  obtain ⟨enumerator, hnumbered⟩ := state.numbered_eq node
  have hidentify : (identify (state.numbered node).toAttributes).unnumbered =
      node.toAttributes.unnumbered := by rw [identify_unnumbered, hnumbered]; rfl
  obtain ⟨-, hvisit⟩ | ⟨identifier, -, -, hvisit⟩ | ⟨identifier, -, -, hvisit⟩ :=
    state.visit_cases node
  · rw [hvisit, hnumbered]
    rfl
  · rw [hvisit, hidentify]
  · rw [hvisit, ← hidentify]
    rfl

/-! ## The page after a visit -/

variable [Text.Slugger]

theorem visit_page (state : Enumeration) (node : Node) :
    ∃ targets counters, (state.visit node).2.page = { state.page with targets, counters } := by
  obtain ⟨counters, hcounted⟩ := state.counted_eq node
  obtain ⟨-, hvisit⟩ | ⟨identifier, -, -, hvisit⟩ | ⟨identifier, -, -, hvisit⟩ :=
    state.visit_cases node
  all_goals
    rw [hvisit, hcounted]
    exact ⟨_, _, rfl⟩

theorem targets_visit (state : Enumeration) (node : Node) :
    ((∀ identifier, node.targetIdentifier? = some identifier →
        state.page.contains identifier = true) ∧
      (state.visit node).2.page.targets = state.page.targets) ∨
    (∃ identifier target, node.targetIdentifier? = some identifier ∧
      state.page.contains identifier = false ∧ target.identifier = identifier ∧
      target.Describes state.page.url ⟨(state.visit node).1, node.children⟩ ∧
      (state.visit node).2.page.targets = state.page.targets.insert identifier target) := by
  obtain ⟨enumerator, hnumbered⟩ := state.numbered_eq node
  obtain ⟨counters, hcounted⟩ := state.counted_eq node
  obtain ⟨hnone, hvisit⟩ | ⟨identifier, hsome, htaken, hvisit⟩ |
      ⟨identifier, hsome, hfree, hvisit⟩ := state.visit_cases node
  · refine Or.inl ⟨by simp [hnone], ?_⟩
    rw [hvisit, hcounted]
  · refine Or.inl ⟨?_, ?_⟩
    · intro other hother
      rw [hsome, Option.some.injEq] at hother
      exact hother ▸ htaken
    · rw [hvisit, hcounted]
  · refine Or.inr ⟨identifier,
      target (state.counted node).page (state.numbered node) identifier
        (node.htmlId.getD (Label.anchor identifier)), hsome, hfree, rfl, ?_, ?_⟩
    · have hidentifier := (identifier_of_targetIdentifier?
        ((state.targetIdentifier?_numbered node).trans hsome)).2
      obtain ⟨own, label, hidentify⟩ := identify_eq (state.numbered node).toAttributes
      rw [hvisit]
      refine ⟨hidentifier, rfl, ?_, ?_, ?_, ?_, rfl⟩
      · rw [hidentify]
        rfl
      · rw [hidentify]
        rfl
      · rw [hidentify]
        exact title?_congr rfl rfl _
      · rw [hcounted]
        rfl
    · rw [hvisit, hcounted]
      rfl

theorem get?_visit_of_eq_some {state : Enumeration} {identifier : String} {target : Target}
    (h : state.page.targets.get? identifier = some target) (node : Node) :
    (state.visit node).2.page.targets.get? identifier = some target := by
  obtain ⟨-, htargets⟩ | ⟨other, registered, -, hfree, -, -, htargets⟩ :=
    state.targets_visit node
  · rw [htargets, h]
  · have hne : identifier ≠ other := by
      rintro rfl
      simp [PageTargets.contains, SortedMap.contains, h] at hfree
    rw [htargets, SortedMap.get?_insert_of_ne _ _ hne, h]

theorem contains_visit (state : Enumeration) (node : Node) (identifier : String) :
    (state.visit node).2.page.contains identifier = true ↔
      state.page.contains identifier = true ∨ node.targetIdentifier? = some identifier := by
  unfold PageTargets.contains
  obtain ⟨htaken, htargets⟩ | ⟨other, registered, hsome, -, -, -, htargets⟩ :=
    state.targets_visit node
  · rw [htargets]
    exact ⟨Or.inl, fun h => h.elim id (htaken identifier)⟩
  · rw [htargets, hsome, SortedMap.contains_insert, Bool.or_eq_true, decide_eq_true_iff,
      Option.some.injEq, or_comm, @eq_comm _ identifier other]

theorem describes_visit {state : Enumeration} {node : Node} {identifier : String}
    {target : Target} (hfree : state.page.targets.get? identifier = none)
    (h : (state.visit node).2.page.targets.get? identifier = some target) :
    node.targetIdentifier? = some identifier ∧ target.identifier = identifier ∧
      target.Describes state.page.url ⟨(state.visit node).1, node.children⟩ := by
  obtain ⟨-, htargets⟩ | ⟨other, registered, hsome, -, hother, hdescribes, htargets⟩ :=
    state.targets_visit node
  · rw [htargets, hfree] at h
    simp at h
  · rw [htargets, SortedMap.get?_insert] at h
    split at h
    · rename_i heq
      obtain rfl := Option.some.inj h
      exact ⟨heq ▸ hsome, heq ▸ hother, hdescribes⟩
    · rw [hfree] at h
      simp at h

theorem counted_visit (state : Enumeration) (node : Node) :
    (state.visit node).2.registered + (state.visit node).2.found.countP Diagnostic.isDuplicate =
      state.registered + state.found.countP Diagnostic.isDuplicate +
        if node.targetIdentifier?.isSome then 1 else 0 := by
  obtain ⟨counters, hcounted⟩ := state.counted_eq node
  obtain ⟨hnone, hvisit⟩ | ⟨identifier, hsome, -, hvisit⟩ | ⟨identifier, hsome, -, hvisit⟩ :=
    state.visit_cases node
  · rw [hvisit, hcounted, hnone]
    simp
  · have hduplicate : ∀ file attributes,
        (duplicate file identifier attributes).isDuplicate = true := fun _ _ => rfl
    rw [hvisit, hcounted, hsome]
    simp [List.countP_append, hduplicate]
    omega
  · rw [hvisit, hcounted, hsome]
    simp
    omega

end Enumeration

end CrossDoc
