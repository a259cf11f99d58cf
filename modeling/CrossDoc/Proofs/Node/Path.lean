import CrossDoc.Node.Walk
import CrossDoc.Proofs.Node.Walk
import Mathlib.Data.List.Infix
import Mathlib.Data.List.Nodup

/-!
# Following paths

What a path leads to, before and after a change elsewhere in the tree:

* the nodes of a tree are what its paths lead to (`mem_nodes_iff_exists_at?`);
* a change at a path is seen at that path (`at?_modifyAt_self`), is not seen from a path that
  neither leads to it nor starts with it (`at?_modifyAt_of_incomparable`), and above it leaves a
  node its attributes (`at?_modifyAt_of_not_above`) and the number of its children
  (`surface_at?_modifyAt`);
* changes at two paths of which none starts with the other may be made in either order
  (`modifyAt_comm`);
* the paths that are collected are those of the outermost nodes with a property
  (`mem_collectPaths_iff`), so none of them leads through another.
-/

namespace CrossDoc.Node

@[simp] theorem at?_nil (tree : Node) : tree.at? [] = some tree := rfl

theorem at?_cons (tree : Node) (place : Nat) (path : Path) :
    tree.at? (place :: path) =
      (tree.children[place]?).bind (fun child => child.at? path) := rfl

theorem at?_cons_eq_some_iff {tree node : Node} {place : Nat} {path : Path} :
    tree.at? (place :: path) = some node ↔
      ∃ child, tree.children[place]? = some child ∧ child.at? path = some node := by
  rw [at?_cons, Option.bind_eq_some_iff]

theorem at?_append (tree : Node) (path other : Path) :
    tree.at? (path ++ other) = (tree.at? path).bind (fun node => node.at? other) := by
  induction path generalizing tree with
  | nil => rfl
  | cons place rest ih =>
      rw [List.cons_append, at?_cons, at?_cons]
      cases tree.children[place]? with
      | none => rfl
      | some child => exact ih child

theorem at?_mapAttributes (f : Attributes → Attributes) (tree : Node) (path : Path) :
    (tree.mapAttributes f).at? path = (tree.at? path).map (mapAttributes f) := by
  induction path generalizing tree with
  | nil => rfl
  | cons place rest ih =>
      rw [at?_cons, at?_cons, children_mapAttributes, List.getElem?_map]
      cases tree.children[place]? with
      | none => rfl
      | some child => exact ih child

theorem mem_nodes_iff_exists_at? {tree node : Node} :
    node ∈ tree.nodes ↔ ∃ path, tree.at? path = some node := by
  induction tree using induction with
  | node attributes children ih =>
      rw [mem_nodes_iff]
      constructor
      · rintro (rfl | ⟨child, hchild, hnode⟩)
        · exact ⟨[], rfl⟩
        · obtain ⟨path, hpath⟩ := (ih child hchild).1 hnode
          obtain ⟨place, hplace⟩ := List.mem_iff_getElem?.1 hchild
          exact ⟨place :: path, at?_cons_eq_some_iff.2 ⟨child, hplace, hpath⟩⟩
      · rintro ⟨path, hpath⟩
        cases path with
        | nil => exact Or.inl (Option.some.inj hpath).symm
        | cons place rest =>
            obtain ⟨child, hplace, hrest⟩ := at?_cons_eq_some_iff.1 hpath
            have hchild := List.mem_of_getElem? hplace
            exact Or.inr ⟨child, hchild, (ih child hchild).2 ⟨rest, hrest⟩⟩

theorem mem_nodes_of_at? {tree node found : Node} {path : Path} (h : tree.at? path = some node)
    (hfound : found ∈ node.nodes) : found ∈ tree.nodes := by
  obtain ⟨below, hbelow⟩ := mem_nodes_iff_exists_at?.1 hfound
  refine mem_nodes_iff_exists_at?.2 ⟨path ++ below, ?_⟩
  rw [at?_append, h]
  exact hbelow

/-! ## Changes at a path -/

variable (f : Node → Node)

theorem children_modifyAt_cons (place : Nat) (path : Path) (tree : Node) :
    (modifyAt f (place :: path) tree).children =
      tree.children.modify place (modifyAt f path) := rfl

theorem at?_modifyAt_self (path : Path) (tree : Node) :
    (modifyAt f path tree).at? path = (tree.at? path).map f := by
  induction path generalizing tree with
  | nil => rfl
  | cons place rest ih =>
      rw [at?_cons, at?_cons, children_modifyAt_cons, List.getElem?_modify_eq]
      cases tree.children[place]? with
      | none => rfl
      | some child => exact ih child

theorem modifyAt_eq_self {path : Path} {tree node : Node} (hnode : tree.at? path = some node)
    (hf : f node = node) : modifyAt f path tree = tree := by
  induction path generalizing tree with
  | nil => exact Option.some.inj hnode ▸ hf
  | cons place rest ih =>
      obtain ⟨child, hchild, hrest⟩ := at?_cons_eq_some_iff.1 hnode
      have hchildren : tree.children.modify place (modifyAt f rest) = tree.children := by
        refine List.ext_getElem? (fun other => ?_)
        by_cases hplace : place = other
        · subst hplace
          rw [List.getElem?_modify_eq, hchild]
          exact congrArg some (ih hrest)
        · rw [List.getElem?_modify_ne _ _ hplace]
      rw [modifyAt, hchildren]
      cases tree
      rfl

@[simp] theorem modifyAt_id (path : Path) (tree : Node) : modifyAt id path tree = tree := by
  induction path generalizing tree with
  | nil => rfl
  | cons place rest ih =>
      rw [modifyAt, show modifyAt id rest = id from funext ih, List.modify_id]
      cases tree
      rfl

theorem at?_modifyAt_of_incomparable {path other : Path} (tree : Node)
    (hpath : ¬ path <+: other) (hother : ¬ other <+: path) :
    (modifyAt f path tree).at? other = tree.at? other := by
  induction path generalizing tree other with
  | nil => exact absurd List.nil_prefix hpath
  | cons place rest ih =>
      cases other with
      | nil => exact absurd List.nil_prefix hother
      | cons place' rest' =>
          rw [at?_cons, at?_cons, children_modifyAt_cons]
          by_cases hplace : place = place'
          · subst hplace
            rw [List.prefix_cons_inj] at hpath hother
            rw [List.getElem?_modify_eq]
            cases tree.children[place]? with
            | none => rfl
            | some child => exact ih child hpath hother
          · rw [List.getElem?_modify_ne _ _ hplace]

theorem modifyAt_comm {path other : Path} (g : Node → Node) (tree : Node)
    (hpath : ¬ path <+: other) (hother : ¬ other <+: path) :
    modifyAt f path (modifyAt g other tree) = modifyAt g other (modifyAt f path tree) := by
  induction path generalizing tree other with
  | nil => exact absurd List.nil_prefix hpath
  | cons place rest ih =>
      cases other with
      | nil => exact absurd List.nil_prefix hother
      | cons place' rest' =>
          refine congrArg (Node.mk tree.toAttributes) ?_
          rw [children_modifyAt_cons, children_modifyAt_cons]
          by_cases hplace : place = place'
          · subst hplace
            rw [List.prefix_cons_inj] at hpath hother
            rw [List.modify_modify_eq, List.modify_modify_eq]
            exact congrArg (tree.children.modify place)
              (funext (fun child => ih child hpath hother))
          · rw [List.modify_modify_ne _ _ _ (Ne.symm hplace)]

theorem at?_modifyAt_of_not_above {path other : Path} {tree node : Node}
    (hpath : ¬ (path <+: other ∧ path ≠ other)) (hnode : tree.at? other = some node) :
    ∃ changed, (modifyAt f path tree).at? other = some changed ∧
      (changed.toAttributes = node.toAttributes ∨ path = other ∧ changed = f node) := by
  induction path generalizing tree other with
  | nil =>
      cases other with
      | nil =>
          obtain rfl := Option.some.inj hnode
          exact ⟨f tree, rfl, Or.inr ⟨rfl, rfl⟩⟩
      | cons place rest => exact absurd ⟨List.nil_prefix, by simp⟩ hpath
  | cons place rest ih =>
      cases other with
      | nil =>
          obtain rfl := Option.some.inj hnode
          exact ⟨_, rfl, Or.inl rfl⟩
      | cons place' rest' =>
          obtain ⟨child, hchild, hrest⟩ := at?_cons_eq_some_iff.1 hnode
          by_cases hplace : place = place'
          · subst hplace
            have hrest' : ¬ (rest <+: rest' ∧ rest ≠ rest') := by
              simpa [List.prefix_cons_inj] using hpath
            obtain ⟨changed, hchanged, hattributes⟩ := ih hrest' hrest
            refine ⟨changed, at?_cons_eq_some_iff.2 ⟨_, ?_, hchanged⟩, by simpa using hattributes⟩
            rw [children_modifyAt_cons, List.getElem?_modify_eq, hchild]
            rfl
          · refine ⟨node, at?_cons_eq_some_iff.2 ⟨child, ?_, hrest⟩, Or.inl rfl⟩
            rw [children_modifyAt_cons, List.getElem?_modify_ne _ _ hplace, hchild]

/-- What a node is apart from what its children are: its attributes and the number of children. -/
def surface (node : Node) : Attributes × Nat := (node.toAttributes, node.children.length)

theorem surface_at?_modifyAt {path other : Path} (tree : Node) (hpath : ¬ path <+: other) :
    ((modifyAt f path tree).at? other).map surface = (tree.at? other).map surface := by
  induction path generalizing tree other with
  | nil => exact absurd List.nil_prefix hpath
  | cons place rest ih =>
      cases other with
      | nil => exact congrArg some (Prod.ext rfl (List.length_modify _ _ _))
      | cons place' rest' =>
          rw [at?_cons, at?_cons, children_modifyAt_cons]
          by_cases hplace : place = place'
          · subst hplace
            rw [List.prefix_cons_inj] at hpath
            rw [List.getElem?_modify_eq]
            cases tree.children[place]? with
            | none => rfl
            | some child => exact ih child hpath
          · rw [List.getElem?_modify_ne _ _ hplace]

theorem exists_at?_of_surface_eq {tree changed found : Node} {path : Path}
    (h : (changed.at? path).map surface = (tree.at? path).map surface)
    (hfound : changed.at? path = some found) :
    ∃ node, tree.at? path = some node ∧ found.toAttributes = node.toAttributes ∧
      found.children.length = node.children.length := by
  rw [hfound, Option.map_some] at h
  obtain ⟨node, hnode, hsame⟩ := Option.map_eq_some_iff.1 h.symm
  obtain ⟨hattributes, hlength⟩ := Prod.mk.inj hsame
  exact ⟨node, hnode, hattributes.symm, hlength.symm⟩

/-- What is found after a change was there before, but for children, or is in what was changed. -/
theorem at?_modifyAt_cases {path other : Path} {tree found : Node}
    (h : (modifyAt f path tree).at? other = some found) :
    (¬ path <+: other ∧ ∃ node, tree.at? other = some node ∧
        found.toAttributes = node.toAttributes) ∨
      ∃ below node, other = path ++ below ∧ tree.at? path = some node ∧
        (f node).at? below = some found := by
  by_cases habove : path <+: other
  · right
    obtain ⟨below, rfl⟩ := habove
    rw [at?_append, at?_modifyAt_self] at h
    obtain ⟨changed, hchanged, hbelow⟩ := Option.bind_eq_some_iff.1 h
    obtain ⟨node, hnode, rfl⟩ := Option.map_eq_some_iff.1 hchanged
    exact ⟨below, node, rfl, hnode, hbelow⟩
  · obtain ⟨node, hnode, hsame, -⟩ :=
      exists_at?_of_surface_eq (surface_at?_modifyAt f tree habove) h
    exact Or.inl ⟨habove, node, hnode, hsame⟩

theorem at?_modifyAt_of_keeps (path : Path) {other : Path} {tree node : Node}
    (hf : ∀ node, node.children ≠ [] → (f node).children = node.children)
    (hnode : tree.at? other = some node) :
    ∃ changed, (modifyAt f path tree).at? other = some changed ∧
      (changed.toAttributes = node.toAttributes ∨
        changed.toAttributes = (f node).toAttributes) := by
  by_cases habove : path <+: other ∧ path ≠ other
  · obtain ⟨⟨below, rfl⟩, hne⟩ := habove
    obtain ⟨found, hfound, hbelow⟩ := Option.bind_eq_some_iff.1 (at?_append tree path below ▸ hnode)
    cases below with
    | nil => exact absurd (List.append_nil path).symm hne
    | cons place rest =>
        obtain ⟨child, hchild, hrest⟩ := at?_cons_eq_some_iff.1 hbelow
        have hchildren : found.children ≠ [] := by
          intro hnil
          rw [hnil] at hchild
          simp at hchild
        refine ⟨node, ?_, Or.inl rfl⟩
        rw [at?_append, at?_modifyAt_self, hfound]
        exact at?_cons_eq_some_iff.2 ⟨child, (hf found hchildren).symm ▸ hchild, hrest⟩
  · obtain ⟨changed, hchanged, hsame | ⟨-, rfl⟩⟩ := at?_modifyAt_of_not_above f habove hnode
    · exact ⟨changed, hchanged, Or.inl hsame⟩
    · exact ⟨_, hchanged, Or.inr rfl⟩

theorem field_modifyAt {α : Type} (field : Attributes → α) {f : Node → Node}
    (hf : ∀ node, field (f node).toAttributes = field node.toAttributes) (path : Path)
    (tree : Node) : field (modifyAt f path tree).toAttributes = field tree.toAttributes := by
  cases path with
  | nil => exact hf tree
  | cons place rest => rfl

theorem forall_mem_modify {p : Node → Prop} {f : Node → Node} {siblings : List Node}
    (h : ∀ node ∈ siblings, p node) (hf : ∀ node, p node → p (f node)) {place : Nat} :
    ∀ node ∈ siblings.modify place f, p node := by
  intro node hnode
  obtain ⟨index, hindex⟩ := List.mem_iff_getElem?.1 hnode
  rw [List.getElem?_modify] at hindex
  obtain ⟨before, hbefore, rfl⟩ := Option.map_eq_some_iff.1 hindex
  have hp := h before (List.mem_of_getElem? hbefore)
  split
  · exact hf before hp
  · exact hp

/-! ## Collected paths -/

/-- A path leads to a node with a property, and through none on its way. -/
def IsOutermost (p : Node → Bool) (tree : Node) (path : Path) : Prop :=
  (∃ node, tree.at? path = some node ∧ p node = true) ∧
    ∀ before node, before <+: path → before ≠ path → tree.at? before = some node →
      p node = false

theorem mem_collectPathsFrom_iff {p : Node → Bool} {place : Nat} {siblings : List Node}
    {path : Path} :
    path ∈ collectPathsFrom p place siblings ↔
      ∃ index child rest, siblings[index]? = some child ∧ path = (place + index) :: rest ∧
        rest ∈ child.collectPaths p := by
  induction siblings generalizing place with
  | nil => simp [collectPathsFrom]
  | cons node others ih =>
      rw [collectPathsFrom, List.mem_append, List.mem_map, ih]
      constructor
      · rintro (⟨rest, hrest, rfl⟩ | ⟨index, child, rest, hchild, rfl, hrest⟩)
        · exact ⟨0, node, rest, rfl, rfl, hrest⟩
        · exact ⟨index + 1, child, rest, hchild, by rw [Nat.add_right_comm, Nat.add_assoc], hrest⟩
      · rintro ⟨index, child, rest, hchild, rfl, hrest⟩
        cases index with
        | zero =>
            obtain rfl := Option.some.inj hchild
            exact Or.inl ⟨rest, hrest, rfl⟩
        | succ index =>
            exact Or.inr ⟨index, child, rest, hchild, by rw [Nat.add_right_comm, Nat.add_assoc],
              hrest⟩

theorem isOutermost_nil_iff {p : Node → Bool} {tree : Node} :
    IsOutermost p tree [] ↔ p tree = true := by
  constructor
  · rintro ⟨⟨node, hnode, hp⟩, -⟩
    exact Option.some.inj hnode ▸ hp
  · intro hp
    exact ⟨⟨tree, rfl, hp⟩, fun before _ hbefore hne => absurd (List.prefix_nil.1 hbefore) hne⟩

theorem isOutermost_cons_iff {p : Node → Bool} {tree : Node} {place : Nat} {path : Path} :
    IsOutermost p tree (place :: path) ↔
      p tree = false ∧ ∃ child, tree.children[place]? = some child ∧ IsOutermost p child path := by
  constructor
  · rintro ⟨⟨node, hnode, hp⟩, houter⟩
    obtain ⟨child, hchild, hrest⟩ := at?_cons_eq_some_iff.1 hnode
    refine ⟨houter [] tree List.nil_prefix (by simp) rfl, child, hchild, ⟨node, hrest, hp⟩, ?_⟩
    intro before other hbefore hne hother
    exact houter (place :: before) other (List.prefix_cons_inj place |>.2 hbefore)
      (by simpa using hne) (at?_cons_eq_some_iff.2 ⟨child, hchild, hother⟩)
  · rintro ⟨hp, child, hchild, ⟨node, hrest, hnode⟩, houter⟩
    refine ⟨⟨node, at?_cons_eq_some_iff.2 ⟨child, hchild, hrest⟩, hnode⟩, ?_⟩
    intro before other hbefore hne hother
    cases before with
    | nil => exact Option.some.inj hother ▸ hp
    | cons place' before =>
        obtain ⟨rfl, hbelow⟩ := List.cons_prefix_cons.1 hbefore
        obtain ⟨child', hchild', hother⟩ := at?_cons_eq_some_iff.1 hother
        obtain rfl := Option.some.inj (hchild.symm.trans hchild')
        exact houter before other hbelow (by simpa using hne) hother

theorem mem_collectPaths_iff {p : Node → Bool} {tree : Node} {path : Path} :
    path ∈ tree.collectPaths p ↔ IsOutermost p tree path := by
  induction tree using induction generalizing path with
  | node attributes children ih =>
      unfold collectPaths
      cases hp : p ⟨attributes, children⟩ with
      | true =>
          cases path with
          | nil => simp [isOutermost_nil_iff, hp]
          | cons place rest => simp [isOutermost_cons_iff, hp]
      | false =>
          simp only [Bool.false_eq_true, if_false]
          rw [mem_collectPathsFrom_iff]
          cases path with
          | nil => simp [isOutermost_nil_iff, hp]
          | cons place rest =>
              rw [isOutermost_cons_iff]
              constructor
              · rintro ⟨index, child, rest', hchild, heq, hrest⟩
                obtain ⟨rfl, rfl⟩ : place = index ∧ rest = rest' := by simpa using heq
                exact ⟨hp, child, hchild, (ih child (List.mem_of_getElem? hchild)).1 hrest⟩
              · rintro ⟨-, child, hchild, hrest⟩
                exact ⟨place, child, rest, hchild, by simp,
                  (ih child (List.mem_of_getElem? hchild)).2 hrest⟩

theorem of_mem_collectPaths {p : Node → Bool} {tree node : Node} {path : Path}
    (h : path ∈ tree.collectPaths p) (hnode : tree.at? path = some node) : p node = true := by
  obtain ⟨⟨found, hfound, hp⟩, -⟩ := mem_collectPaths_iff.1 h
  exact Option.some.inj (hnode.symm.trans hfound) ▸ hp

theorem exists_mem_collectPaths_of_at? {p : Node → Bool} {path : Path} {tree node : Node}
    (h : tree.at? path = some node) (hp : p node = true) :
    ∃ before, before <+: path ∧ before ∈ tree.collectPaths p := by
  simp only [mem_collectPaths_iff]
  induction path generalizing tree with
  | nil =>
      have hsame := Option.some.inj h
      exact ⟨[], List.nil_prefix, isOutermost_nil_iff.2 (hsame ▸ hp)⟩
  | cons place rest ih =>
      by_cases hroot : p tree = true
      · exact ⟨[], List.nil_prefix, isOutermost_nil_iff.2 hroot⟩
      · obtain ⟨child, hchild, hrest⟩ := at?_cons_eq_some_iff.1 h
        obtain ⟨before, hbefore, houtermost⟩ := ih hrest
        have hfalse : p tree = false := by simpa using hroot
        exact ⟨place :: before, (List.prefix_cons_inj place).2 hbefore,
          isOutermost_cons_iff.2 ⟨hfalse, child, hchild, houtermost⟩⟩

theorem eq_of_prefix_of_mem_collectPaths {p : Node → Bool} {tree : Node} {path other : Path}
    (hpath : path ∈ tree.collectPaths p) (hother : other ∈ tree.collectPaths p)
    (habove : path <+: other) : path = other := by
  by_contra hne
  obtain ⟨⟨node, hnode, hp⟩, -⟩ := mem_collectPaths_iff.1 hpath
  have hnot := (mem_collectPaths_iff.1 hother).2 path node habove hne hnode
  simp [hp] at hnot

end CrossDoc.Node
