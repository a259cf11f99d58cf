import CrossDoc.Proofs.CrossReference
import CrossDoc.Proofs.Node.Visit

/-!
# Every cross-reference is accounted for

The pass over the cross-references of a page, told as it goes: it looks up what a node wants, turns
the node into a resolved one or reports it, and goes on into the children that the node has then,
the text it was given among them (`visit`). A look-up fails only where no page of the project
resolves the identifier (`isSome_lookUp?_iff`). So every reference is either resolved or reported,
and the index alone tells which of the two (`accounts_for_references`).
-/

namespace CrossDoc

def ProjectIndex.Resolves (index : ProjectIndex) (identifier : String) : Prop :=
  ∃ path page, index.get? path = some page ∧ (page.targets.resolve? identifier).isSome = true

/-- How far a pass over cross-references has come: what it has resolved, and the report so far. -/
structure ReferencePass where
  resolved : Nat
  report : Report

namespace CrossReference

variable {index : ProjectIndex} {file : String}

/-! ## What can be resolved -/

variable (index file) in
theorem isSome_lookUp?_iff (identifier : String) :
    (lookUp? index file identifier).isSome = true ↔ index.Resolves identifier := by
  constructor
  · intro h
    obtain ⟨⟨owner, target⟩, hfound⟩ := Option.isSome_iff_exists.1 h
    obtain ⟨page, hpage, htarget⟩ := exists_of_lookUp? hfound
    exact ⟨owner, page, hpage, Option.isSome_iff_exists.2 ⟨target, htarget⟩⟩
  · rintro ⟨path, page, hpage, hresolves⟩
    obtain ⟨target, htarget⟩ := Option.isSome_iff_exists.1 hresolves
    exact Option.isSome_iff_exists.2 (exists_lookUp? file hpage htarget)

instance (index : ProjectIndex) (identifier : String) : Decidable (index.Resolves identifier) :=
  decidable_of_iff _ (isSome_lookUp?_iff index "" identifier)

theorem owner_eq_of_lookUp? {identifier owner : String} {target own : Target} {page : IndexedPage}
    (h : lookUp? index file identifier = some (owner, target)) (hpage : index.get? file = some page)
    (hown : page.targets.resolve? identifier = some own) : owner = file :=
  congrArg (fun found => found.1) (Option.some.inj (h.symm.trans (lookUp?_own hpage hown)))

theorem target?_of_wanted?_eq_none {attributes : Attributes} (h : wanted? attributes = none) :
    target? index file attributes = none := by
  unfold target?
  rw [h]
  rfl

theorem target?_of_wanted? {attributes : Attributes} {identifier : String}
    (h : wanted? attributes = some identifier) :
    target? index file attributes = lookUp? index file identifier := by
  unfold target?
  rw [h]
  rfl

variable (index file) in
theorem isSome_target? (attributes : Attributes) :
    (target? index file attributes).isSome =
      (wanted? attributes).any (fun identifier => decide (index.Resolves identifier)) := by
  unfold target?
  rw [Option.isSome_bind]
  simp only [← isSome_lookUp?_iff index file, Bool.decide_eq_true]

/-! ## The pass as it goes -/

def visit (index : ProjectIndex) (file : String) (node : Node) (pass : ReferencePass) :
    Node × ReferencePass :=
  match wanted? node.toAttributes with
  | none => (node, pass)
  | some identifier =>
    match lookUp? index file identifier with
    | none => (node, { pass with report := pass.report.add (missing index file node.toAttributes) })
    | some (owner, target) =>
      (⟨resolved file owner target node.toAttributes,
          if node.children.isEmpty then ownText target else node.children⟩,
        { pass with resolved := pass.resolved + 1 })

def givenChildren (index : ProjectIndex) (file : String) (node : Node) : List Node :=
  match target? index file node.toAttributes with
  | none => node.children
  | some (_, target) => if node.children.isEmpty then ownText target else node.children

variable (index file) in
theorem wanted?_cases (attributes : Attributes) :
    wanted? attributes = none ∨
      (∃ identifier, wanted? attributes = some identifier ∧
        lookUp? index file identifier = none) ∨
      ∃ identifier owner target, wanted? attributes = some identifier ∧
        lookUp? index file identifier = some (owner, target) := by
  cases wanted? attributes with
  | none => exact Or.inl rfl
  | some identifier =>
      cases hlookUp : lookUp? index file identifier with
      | none => exact Or.inr (Or.inl ⟨identifier, rfl, hlookUp⟩)
      | some found => exact Or.inr (Or.inr ⟨identifier, found.1, found.2, rfl, hlookUp⟩)

theorem visit_eq (node : Node) (pass : ReferencePass) :
    visit index file node pass =
      (⟨treat index file node.toAttributes, givenChildren index file node⟩,
        { resolved := pass.resolved +
            if (target? index file node.toAttributes).isSome then 1 else 0
          report := pass.report.add (missing index file node.toAttributes) }) := by
  obtain ⟨attributes, children⟩ := node
  obtain hwanted | ⟨identifier, hwanted, hlookUp⟩ | ⟨identifier, owner, target, hwanted, hlookUp⟩ :=
    wanted?_cases index file attributes
  · simp [visit, treat, givenChildren, target?, missing, hwanted, Report.add]
  · simp [visit, treat, givenChildren, target?, missing, hwanted, hlookUp]
  · simp [visit, treat, givenChildren, target?, missing, hwanted, hlookUp, Report.add]

theorem children_resolve_of_eq_nil {node : Node} (h : node.children = []) :
    (resolve index file node).children = givenChildren index file node := by
  obtain ⟨attributes, children⟩ := node
  obtain rfl : children = [] := h
  unfold givenChildren
  cases htarget : target? index file attributes with
  | none =>
      rw [resolve_of_target?_eq_none htarget]
      rfl
  | some found =>
      rw [resolve_of_target? htarget]
      rfl

theorem givenChildren_of_ne_nil {node : Node} (h : node.children ≠ []) :
    givenChildren index file node = node.children := by
  unfold givenChildren
  cases target? index file node.toAttributes with
  | none => rfl
  | some found => simp [h]

/-- The text that a reference is given is walked through and stays as it is. -/
theorem walks_givenChildren {node : Node} (h : node.children = []) (pass : ReferencePass) :
    Node.Walks (visit index file) (givenChildren index file node) pass
      (givenChildren index file node) pass := by
  unfold givenChildren ownText
  rw [h]
  cases target? index file node.toAttributes with
  | none => exact .nil pass
  | some found =>
      cases htext : found.2.linkText? with
      | none => simpa [htext] using .nil pass
      | some text =>
          have hwanted : wanted? (Node.text text).toAttributes = none :=
            wanted?_eq_none_of_type_ne (show NodeType.text ≠ NodeType.crossReference by decide)
          have hvisit : visit index file (.text text) pass = (.text text, pass) := by
            unfold visit
            rw [hwanted]
          simpa [htext] using .cons hvisit (.nil pass) (.nil pass)

theorem foldl_visit (nodes : List Node) (pass : ReferencePass) :
    nodes.foldl (fun pass node => (visit index file node pass).2) pass =
      { resolved := pass.resolved +
          nodes.countP (fun node => (target? index file node.toAttributes).isSome)
        report := pass.report.add
          (nodes.flatMap (fun node => missing index file node.toAttributes)) } := by
  induction nodes generalizing pass with
  | nil => simp [Report.add]
  | cons node rest ih =>
      rw [List.foldl_cons, ih, visit_eq]
      simp [Report.add, List.countP_cons, Nat.add_assoc, Nat.add_comm]

/-- A pass over a tree changes it, counts and reports as is told node by node. -/
theorem walks_visit (index : ProjectIndex) (file : String) (tree : Node) (pass : ReferencePass) :
    Node.Walks (visit index file) [tree] pass [resolve index file tree]
      { resolved := pass.resolved + count index file tree
        report := pass.report.add (findings index file tree) } := by
  unfold count findings
  rw [← foldl_visit]
  refine Node.walks_of_visit (fun node pass => ⟨?_, rfl⟩) (fun node pass hleaf left => ?_)
    (fun node pass hinner => ⟨?_, ?_⟩) tree pass
  · rw [toAttributes_resolve, visit_eq]
  · -- the pass goes on into the text that it has just written
    rw [children_resolve_of_eq_nil hleaf, visit_eq]
    exact walks_givenChildren hleaf left
  · rw [visit_eq]
    exact givenChildren_of_ne_nil hinner
  · exact children_resolve_of_ne_nil hinner

/-! ## What comes of a node -/

/-- What the pass leaves of a node and reports of it, by what the node refers to. -/
inductive Settles (index : ProjectIndex) (file : String) (node after : Node) :
    List Diagnostic → Prop
  | other (hwanted : wanted? node.toAttributes = none)
      (hattributes : after.toAttributes = node.toAttributes)
      (hchildren : after.children.length = node.children.length) :
      Settles index file node after []
  | missing {identifier : String} {finding : Diagnostic}
      (hwanted : wanted? node.toAttributes = some identifier)
      (hnone : ¬ index.Resolves identifier)
      (hattributes : after.toAttributes = node.toAttributes)
      (hchildren : after.children.length = node.children.length)
      (hseverity : finding.severity = .warning) (hrule : finding.rule = .referenceTargetResolves) :
      Settles index file node after [finding]
  /--
  A reference that some page resolves goes to a target of such a page, which is its own page if
  that resolves it. It keeps the children it has, and otherwise has the text of the target.
  -/
  | resolved {identifier owner : String} {page : IndexedPage} {target : Target}
      (hwanted : wanted? node.toAttributes = some identifier)
      (hpage : index.get? owner = some page)
      (htarget : page.targets.resolve? identifier = some target)
      (hown : ∀ page, index.get? file = some page →
        (page.targets.resolve? identifier).isSome = true → owner = file)
      (hattributes : after.toAttributes = resolved file owner target node.toAttributes)
      (hchildren : if node.children = [] then after.children = ownText target
        else after.children.length = node.children.length) :
      Settles index file node after []

theorem settles_resolve (index : ProjectIndex) (file : String) (node : Node) :
    Settles index file node (resolve index file node) (missing index file node.toAttributes) := by
  obtain ⟨attributes, children⟩ := node
  obtain hwanted | ⟨identifier, hwanted, hlookUp⟩ | ⟨identifier, owner, target, hwanted, hlookUp⟩ :=
    wanted?_cases index file attributes
  · rw [resolve_of_target?_eq_none (target?_of_wanted?_eq_none hwanted)]
    simp only [missing, hwanted]
    exact .other hwanted rfl (List.length_map _)
  · have hnone : ¬ index.Resolves identifier := by
      rw [← isSome_lookUp?_iff index file, hlookUp]
      simp
    rw [resolve_of_target?_eq_none ((target?_of_wanted? hwanted).trans hlookUp)]
    simp only [missing, hwanted, hlookUp, Option.isSome_none, Bool.false_eq_true, if_false]
    exact .missing hwanted hnone rfl (List.length_map _) rfl rfl
  · obtain ⟨page, hpage, htarget⟩ := exists_of_lookUp? hlookUp
    rw [resolve_of_target? ((target?_of_wanted? hwanted).trans hlookUp)]
    simp only [missing, hwanted, hlookUp, Option.isSome_some, if_true]
    refine .resolved hwanted hpage htarget (fun own hfile hresolves => ?_) rfl ?_
    · obtain ⟨found, hfound⟩ := Option.isSome_iff_exists.1 hresolves
      exact owner_eq_of_lookUp? hlookUp hfile hfound
    · cases children with
      | nil => rfl
      | cons first rest => simp

variable (index file) in
theorem isSome_target?_add_length_missing (attributes : Attributes) :
    (if (target? index file attributes).isSome then 1 else 0) +
        (missing index file attributes).length =
      if (wanted? attributes).isSome then 1 else 0 := by
  obtain hwanted | ⟨identifier, hwanted, hlookUp⟩ | ⟨identifier, owner, target, hwanted, hlookUp⟩ :=
    wanted?_cases index file attributes
  · simp [target?, missing, hwanted]
  · simp [target?, missing, hwanted, hlookUp]
  · simp [target?, missing, hwanted, hlookUp]

theorem count_add_length_findings (index : ProjectIndex) (file : String) (tree : Node) :
    count index file tree + (findings index file tree).length =
      tree.nodes.countP (fun node => (wanted? node.toAttributes).isSome) := by
  unfold count findings
  induction tree.nodes with
  | nil => rfl
  | cons node rest ih =>
      have hnode := isSome_target?_add_length_missing index file node.toAttributes
      simp only [List.countP_cons, List.flatMap_cons, List.length_append]
      omega

end CrossReference

end CrossDoc
