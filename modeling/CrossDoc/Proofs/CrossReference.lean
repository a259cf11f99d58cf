import CrossDoc.CrossReference
import CrossDoc.Proofs.Node.Path
import CrossDoc.Proofs.Target.Visit

/-!
# Resolving cross-references node by node

The pass over cross-references leaves every node where it is (`at?_resolve`) and treats its
attributes by themselves (`treat`): a look-up that leads nowhere changes nothing. A page that has a
target is found whenever that target's identifier is looked up from it, and a look-up fails only if
no page of the project answers it.
-/

namespace CrossDoc

namespace ProjectIndex

variable {index : ProjectIndex}

theorem resolve?_some_eq_some_iff {identifier file owner : String} {target : Target} :
    index.resolve? identifier (some file) = some (owner, target) ↔
      owner = file ∧ ∃ page, index.get? file = some page ∧
        page.targets.resolve? identifier = some target := by
  simp only [resolve?, owner?, ownerIn?, bind, Option.bind_eq_some_iff, Option.some.injEq,
    Prod.mk.injEq]
  constructor
  · rintro ⟨_, ⟨page, hpage, _, -, rfl⟩, found, hfound, rfl, rfl⟩
    exact ⟨rfl, page, hpage, hfound⟩
  · rintro ⟨rfl, page, hpage, htarget⟩
    exact ⟨_, ⟨page, hpage, target, htarget, rfl⟩, target, htarget, rfl, rfl⟩

theorem owner?_none_eq_some_iff {identifier owner : String} {page : IndexedPage} :
    index.owner? identifier none = some (owner, page) ↔
      index.get? owner = some page ∧ (page.targets.resolve? identifier).isSome = true ∧
        ∀ other found, other < owner → index.get? other = some found →
          found.targets.resolve? identifier = none := by
  have hnone (found : IndexedPage) : (found.targets.resolve? identifier).isSome = false ↔
      found.targets.resolve? identifier = none :=
    Option.isSome_eq_false_iff.trans Option.isNone_iff_eq_none
  unfold owner? firstOwner?
  simp only [SortedMap.find?_eq_some_iff, hnone]

theorem get?_of_owner? {identifier owner : String} {file : Option String} {page : IndexedPage}
    (h : index.owner? identifier file = some (owner, page)) : index.get? owner = some page := by
  cases file with
  | none => exact (owner?_none_eq_some_iff.1 h).1
  | some file =>
      obtain ⟨found, hfound, hsome⟩ := Option.bind_eq_some_iff.1 h
      obtain ⟨target, -, hentry⟩ := Option.bind_eq_some_iff.1 hsome
      obtain ⟨hfile, hpage⟩ := Prod.mk.inj (Option.some.inj hentry)
      rw [← hfile, ← hpage]
      exact hfound

theorem resolve?_eq_some_iff {identifier owner : String} {file : Option String} {target : Target} :
    index.resolve? identifier file = some (owner, target) ↔
      ∃ page, index.owner? identifier file = some (owner, page) ∧
        page.targets.resolve? identifier = some target := by
  unfold resolve?
  constructor
  · intro h
    obtain ⟨⟨path, page⟩, howner, hsome⟩ := Option.bind_eq_some_iff.1 h
    obtain ⟨found, hfound, hentry⟩ := Option.bind_eq_some_iff.1 hsome
    obtain ⟨hpath, htarget⟩ := Prod.mk.inj (Option.some.inj hentry)
    exact ⟨page, hpath ▸ howner, htarget ▸ hfound⟩
  · rintro ⟨page, howner, htarget⟩
    refine Option.bind_eq_some_iff.2 ⟨(owner, page), howner, ?_⟩
    exact Option.bind_eq_some_iff.2 ⟨target, htarget, rfl⟩

theorem exists_of_resolve? {identifier owner : String} {file : Option String} {target : Target}
    (h : index.resolve? identifier file = some (owner, target)) :
    ∃ page, index.get? owner = some page ∧ page.targets.resolve? identifier = some target := by
  obtain ⟨page, howner, htarget⟩ := resolve?_eq_some_iff.1 h
  exact ⟨page, get?_of_owner? howner, htarget⟩

theorem isSome_resolve?_none {identifier file : String} {page : IndexedPage} {target : Target}
    (hpage : index.get? file = some page) (h : page.targets.resolve? identifier = some target) :
    (index.resolve? identifier none).isSome = true := by
  have hfirst : (index.firstOwner? identifier).isSome = true := by
    refine List.find?_isSome.2 ⟨(file, page), SortedMap.get?_eq_some_iff_mem.1 hpage, ?_⟩
    simp [h]
  obtain ⟨entry, hentry⟩ := Option.isSome_iff_exists.1 hfirst
  have hfound := List.find?_some hentry
  obtain ⟨found, hfound⟩ := Option.isSome_iff_exists.1 hfound
  simp [resolve?, owner?, hentry, hfound]

end ProjectIndex

namespace CrossReference

variable {index : ProjectIndex} {file : String}

theorem lookUp?_own {identifier : String} {page : IndexedPage} {target : Target}
    (hpage : index.get? file = some page) (h : page.targets.resolve? identifier = some target) :
    lookUp? index file identifier = some (file, target) := by
  unfold lookUp?
  rw [ProjectIndex.resolve?_some_eq_some_iff.2 ⟨rfl, page, hpage, h⟩]
  rfl

theorem exists_of_lookUp? {identifier owner : String} {target : Target}
    (h : lookUp? index file identifier = some (owner, target)) :
    ∃ page, index.get? owner = some page ∧ page.targets.resolve? identifier = some target := by
  unfold lookUp? at h
  cases hown : index.resolve? identifier (some file) with
  | none => exact ProjectIndex.exists_of_resolve? (by simpa [hown] using h)
  | some found => exact ProjectIndex.exists_of_resolve? (hown.trans (by simpa [hown] using h))

variable (file) in
theorem exists_lookUp? {identifier owner : String} {page : IndexedPage} {target : Target}
    (hpage : index.get? owner = some page) (h : page.targets.resolve? identifier = some target) :
    ∃ found, lookUp? index file identifier = some found := by
  obtain ⟨first, hfirst⟩ := Option.isSome_iff_exists.1 (ProjectIndex.isSome_resolve?_none hpage h)
  unfold lookUp?
  cases index.resolve? identifier (some file) with
  | none => exact ⟨first, by simpa using hfirst⟩
  | some own => exact ⟨own, rfl⟩

/-! ## One node -/

/-- The url of a target of the page `owner` as it is written on the page `file`. -/
def urlFrom (file owner : String) (target : Target) : String :=
  if owner = file then "#" ++ target.htmlId else target.url

theorem wanted?_eq_none_of_isRemote {attributes : Attributes}
    (h : attributes.isRemote = some true) : wanted? attributes = none := by
  simp [wanted?, h]

theorem wanted?_eq_none_of_type_ne {attributes : Attributes}
    (h : attributes.type ≠ NodeType.crossReference) : wanted? attributes = none := by
  simp [wanted?, Attributes.is, h]

def treat (index : ProjectIndex) (file : String) (attributes : Attributes) : Attributes :=
  match target? index file attributes with
  | none => attributes
  | some (owner, target) => resolved file owner target attributes

theorem treat_of_wanted?_eq_none {attributes : Attributes} (h : wanted? attributes = none) :
    treat index file attributes = attributes := by
  simp [treat, target?, h]

theorem treat_of_lookUp? {attributes : Attributes} {identifier owner : String} {target : Target}
    (hwanted : wanted? attributes = some identifier)
    (h : lookUp? index file identifier = some (owner, target)) :
    treat index file attributes = resolved file owner target attributes := by
  simp [treat, target?, hwanted, h]

theorem resolveAll_eq_map (trees : List Node) :
    resolveAll index file trees = trees.map (resolve index file) := by
  induction trees with
  | nil => simp [resolveAll]
  | cons tree rest ih => simp [resolveAll, ih]

theorem resolve_of_target?_eq_none {attributes : Attributes}
    (h : target? index file attributes = none) (children : List Node) :
    resolve index file ⟨attributes, children⟩ =
      ⟨attributes, children.map (resolve index file)⟩ := by
  rw [resolve, h, resolveAll_eq_map]

theorem resolve_of_target? {attributes : Attributes} {owner : String} {target : Target}
    (h : target? index file attributes = some (owner, target)) (children : List Node) :
    resolve index file ⟨attributes, children⟩ =
      ⟨resolved file owner target attributes,
        if children.isEmpty then ownText target else children.map (resolve index file)⟩ := by
  rw [resolve, h, resolveAll_eq_map]

theorem toAttributes_resolve (node : Node) :
    (resolve index file node).toAttributes = treat index file node.toAttributes := by
  obtain ⟨attributes, children⟩ := node
  unfold treat
  cases h : target? index file attributes with
  | none => rw [resolve_of_target?_eq_none h]
  | some found => rw [resolve_of_target? h]

theorem children_resolve_of_ne_nil {node : Node} (h : node.children ≠ []) :
    (resolve index file node).children = node.children.map (resolve index file) := by
  obtain ⟨attributes, children⟩ := node
  cases htarget : target? index file attributes with
  | none => rw [resolve_of_target?_eq_none htarget]
  | some found =>
      have hsome : ¬ children.isEmpty = true := fun hempty => h (List.isEmpty_iff.1 hempty)
      rw [resolve_of_target? htarget, if_neg hsome]

theorem getElem?_children_resolve {node child : Node} {place : Nat}
    (h : node.children[place]? = some child) :
    (resolve index file node).children[place]? = some (resolve index file child) := by
  have hsome : node.children ≠ [] := by
    intro hnil
    rw [hnil] at h
    simp at h
  rw [children_resolve_of_ne_nil hsome, List.getElem?_map, h]
  rfl

theorem at?_resolve {tree node : Node} {path : Path} (h : tree.at? path = some node) :
    (resolve index file tree).at? path = some (resolve index file node) := by
  induction path generalizing tree with
  | nil => exact congrArg (fun node => some (resolve index file node)) (Option.some.inj h)
  | cons place rest ih =>
      obtain ⟨child, hchild, hrest⟩ := Node.at?_cons_eq_some_iff.1 h
      exact Node.at?_cons_eq_some_iff.2 ⟨_, getElem?_children_resolve hchild, ih hrest⟩

end CrossReference

end CrossDoc
