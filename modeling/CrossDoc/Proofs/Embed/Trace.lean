import CrossDoc.Proofs.Embed.Lift
import CrossDoc.Proofs.Node.Path

/-!
# Where lifting takes a node

`standing?` reads off a tree what a node is to its parent, and `liftedPath?` where the node ends up:
nowhere if it is a wrapper, or in a caption or a legend that is dropped. At the place it ends up at
stands the node with what its children become (`at?_liftEmbeds`).
-/

namespace CrossDoc.Node

def shift (offset : Nat) : Path → Path
  | [] => []
  | place :: path => (offset + place) :: path

theorem take_append_cons_drop {siblings : List Node} {place : Nat} {node : Node}
    (h : siblings[place]? = some node) :
    siblings.take place ++ node :: siblings.drop (place + 1) = siblings := by
  obtain ⟨hlt, rfl⟩ := List.getElem?_eq_some_iff.1 h
  rw [List.getElem_cons_drop, List.take_append_drop]

theorem at?_shift {attributes others : Attributes} {before trees after : List Node} {path : Path}
    {node : Node} (hpath : path ≠ []) (h : (Node.of attributes trees).at? path = some node) :
    (Node.of others (before ++ (trees ++ after))).at? (shift before.length path) = some node := by
  cases path with
  | nil => exact absurd rfl hpath
  | cons place rest =>
      obtain ⟨child, hchild, hrest⟩ := at?_cons_eq_some_iff.1 h
      refine at?_cons_eq_some_iff.2 ⟨child, ?_, hrest⟩
      have hlt : place < trees.length := by
        by_contra hge
        have hnone : trees[place]? = none := List.getElem?_eq_none (by omega)
        rw [show (Node.of attributes trees).children = trees from rfl, hnone] at hchild
        simp at hchild
      change (before ++ (trees ++ after))[before.length + place]? = some child
      rw [List.getElem?_append_right (by omega), Nat.add_sub_cancel_left,
        List.getElem?_append_left hlt]
      exact hchild

namespace Standing

variable (standing : Standing) (node : Node)

def child? (place : Nat) : Option Node :=
  (node.children[place]?).filter (fun child =>
    !(standing.strips && isCaption child.toAttributes))

def offset (place : Nat) : Nat :=
  ((counted standing.strips (node.children.take place)).flatMap (fun child =>
    (standing.below node child.toAttributes).lifted child (standing.handed node))).length

variable {standing node}

theorem child?_eq_some_iff {place : Nat} {child : Node} :
    standing.child? node place = some child ↔
      node.children[place]? = some child ∧
        (standing.strips && isCaption child.toAttributes) = false := by
  unfold child?
  rw [Option.filter_eq_some_iff, Bool.not_eq_true']

theorem mem_siblings_of_child? {place : Nat} {child : Node}
    (h : standing.child? node place = some child) : child ∈ standing.siblings node := by
  obtain ⟨hchild, hstays⟩ := child?_eq_some_iff.1 h
  exact List.mem_filter.2 ⟨List.mem_of_getElem? hchild, by rw [hstays]; rfl⟩

theorem liftedBelow_eq_append {place : Nat} {child : Node}
    (h : standing.child? node place = some child) :
    ∃ before after, before.length = standing.offset node place ∧
      standing.liftedBelow node = before ++
        ((standing.below node child.toAttributes).lifted child (standing.handed node) ++
          after) := by
  obtain ⟨hchild, hstays⟩ := child?_eq_some_iff.1 h
  have hsiblings : standing.siblings node = counted standing.strips (node.children.take place) ++
      child :: counted standing.strips (node.children.drop (place + 1)) := by
    unfold siblings
    conv_lhs => rw [← take_append_cons_drop hchild]
    unfold counted
    rw [List.filter_append, List.filter_cons, if_pos (by rw [hstays]; rfl)]
  refine ⟨_, (counted standing.strips (node.children.drop (place + 1))).flatMap (fun child =>
    (standing.below node child.toAttributes).lifted child (standing.handed node)), rfl, ?_⟩
  unfold liftedBelow
  rw [hsiblings, List.flatMap_append, List.flatMap_cons]

/-! ## One node and what is below it -/

variable (standing node) in
/-- The standing of the node that a path leads to, if nothing on the way is dropped. -/
def standing? (standing : Standing) (node : Node) : Path → Option Standing
  | [] => some standing
  | place :: path => (standing.child? node place).bind (fun child =>
      standing? (standing.below node child.toAttributes) child path)

/-- Where the node that a path leads to stands among what `node` leaves, if it is still there. -/
def landing? (standing : Standing) (node : Node) : Path → Option Path
  | [] => if standing.elides node then none else some [0]
  | place :: path => (standing.child? node place).bind (fun child =>
      (landing? (standing.below node child.toAttributes) child path).map (fun landing =>
        let below := shift (standing.offset node place) landing
        if standing.elides node then below else 0 :: below))

theorem landing?_ne_nil {path landing : Path} (h : standing.landing? node path = some landing) :
    landing ≠ [] := by
  induction path generalizing standing node landing with
  | nil =>
      rw [landing?] at h
      split at h
      · simp at h
      · exact Option.some.inj h ▸ List.cons_ne_nil 0 []
  | cons place rest ih =>
      rw [landing?, Option.bind_eq_some_iff] at h
      obtain ⟨child, -, hbelow⟩ := h
      obtain ⟨below, hlanding, rfl⟩ := Option.map_eq_some_iff.1 hbelow
      have hne := ih hlanding
      cases below with
      | nil => exact absurd rfl hne
      | cons first others =>
          simp only [shift]
          split
          · exact List.cons_ne_nil _ _
          · exact List.cons_ne_nil _ _

theorem standing?_cons {place : Nat} {child : Node}
    (h : standing.child? node place = some child) (path : Path) :
    standing.standing? node (place :: path) =
      (standing.below node child.toAttributes).standing? child path := by
  rw [standing?, h]
  rfl

theorem at?_of_child? {place : Nat} {child : Node}
    (h : standing.child? node place = some child) (path : Path) :
    node.at? (place :: path) = child.at? path := by
  rw [at?_cons, (child?_eq_some_iff.1 h).1]
  rfl

theorem exists_standing?_cons_iff {place : Nat} {path : Path} {p : Standing → Node → Prop} :
    (∃ own found, standing.standing? node (place :: path) = some own ∧
        node.at? (place :: path) = some found ∧ p own found) ↔
      ∃ child, standing.child? node place = some child ∧ ∃ own found,
        (standing.below node child.toAttributes).standing? child path = some own ∧
          child.at? path = some found ∧ p own found := by
  constructor
  · rintro ⟨own, found, hown, hfound, hp⟩
    obtain ⟨child, hchild, -⟩ := Option.bind_eq_some_iff.1 hown
    rw [standing?_cons hchild] at hown
    rw [at?_of_child? hchild] at hfound
    exact ⟨child, hchild, own, found, hown, hfound, hp⟩
  · rintro ⟨child, hchild, own, found, hown, hfound, hp⟩
    rw [← standing?_cons hchild] at hown
    rw [← at?_of_child? hchild] at hfound
    exact ⟨own, found, hown, hfound, hp⟩

theorem exists_landing?_iff {path : Path} :
    (∃ landing, standing.landing? node path = some landing) ↔
      ∃ own found, standing.standing? node path = some own ∧ node.at? path = some found ∧
        own.elides found = false := by
  induction path generalizing standing node with
  | nil => simp [landing?, standing?]
  | cons place rest ih =>
      simp only [exists_standing?_cons_iff, ← ih, landing?, Option.bind_eq_some_iff,
        Option.map_eq_some_iff]
      constructor
      · rintro ⟨_, child, hchild, landing, hlanding, -⟩
        exact ⟨child, hchild, landing, hlanding⟩
      · rintro ⟨child, hchild, landing, hlanding⟩
        exact ⟨_, child, hchild, landing, hlanding, rfl⟩

theorem handed_eq_none_or {child : Node} (h : child ∈ standing.siblings node) :
    standing.handed node = none ∨ child.is NodeType.container = true := by
  unfold handed
  cases hwraps : standing.wraps node with
  | false => exact Or.inl rfl
  | true =>
      unfold wraps wrapsContainer at hwraps
      exact Or.inr (is_container_of_mem (Bool.and_eq_true_iff.1 hwraps).2 h)

theorem at?_liftedBelow (others : Attributes) {attributes : Attributes} {place : Nat}
    {path below : Path} {child found : Node} (hchild : standing.child? node place = some child)
    (hbelow : (standing.below node child.toAttributes).landing? child path = some below)
    (h : (Node.of attributes ((standing.below node child.toAttributes).lifted child
      (standing.handed node))).at? below = some found) :
    (Node.of others (standing.liftedBelow node)).at? (shift (standing.offset node place) below) =
      some found := by
  obtain ⟨before, after, hlength, hsplit⟩ := liftedBelow_eq_append hchild
  rw [hsplit, ← hlength]
  exact at?_shift (landing?_ne_nil hbelow) h

/-- Where a node stands among what is left, it has its marks and what its children leave. -/
theorem at?_lifted (attributes : Attributes) {source : Option (Option Dependency)}
    {path landing : Path} (h : standing.landing? node path = some landing)
    (hsource : source = none ∨ node.is NodeType.container = true) :
    ∃ own found given, standing.standing? node path = some own ∧ node.at? path = some found ∧
      own.elides found = false ∧ (given = none ∨ found.is NodeType.container = true) ∧
      (Node.of attributes (standing.lifted node source)).at? landing =
        some ⟨own.kept found given, own.liftedBelow found⟩ := by
  -- where a node stands and what it is handed come from above, so both vary along the path
  induction path generalizing standing node landing source attributes with
  | nil =>
      rw [landing?] at h
      cases helides : standing.elides node with
      | true => simp [helides] at h
      | false =>
          obtain rfl : [0] = landing := by simpa [helides] using h
          refine ⟨standing, node, source, rfl, rfl, helides, hsource, ?_⟩
          rw [lifted_of_elides_eq_false standing node source helides]
          rfl
  | cons place rest ih =>
      rw [landing?, Option.bind_eq_some_iff] at h
      obtain ⟨child, hchild, hmap⟩ := h
      obtain ⟨below, hbelow, hlanding⟩ := Option.map_eq_some_iff.1 hmap
      obtain ⟨own, found, given, hown, hfound, helides, hgiven, hat⟩ :=
        ih default hbelow (handed_eq_none_or (mem_siblings_of_child? hchild))
      refine ⟨own, found, given, standing?_cons hchild rest ▸ hown,
        at?_of_child? hchild rest ▸ hfound, helides, hgiven, ?_⟩
      subst hlanding
      cases hroot : standing.elides node with
      | true =>
          rw [lifted_of_elides standing node source hroot]
          simpa [hroot] using at?_liftedBelow attributes hchild hbelow hat
      | false =>
          rw [lifted_of_elides_eq_false standing node source hroot]
          simp only [Bool.false_eq_true, if_false]
          exact at?_liftedBelow _ hchild hbelow hat

end Standing

/-! ## A whole tree -/

open Standing

def liftedPath? (tree : Node) : Path → Option Path
  | [] => some []
  | place :: path => (root.child? tree place).bind (fun child =>
      ((root.below tree child.toAttributes).landing? child path).map
        (shift (root.offset tree place)))

/-- Lifting does not take the node out that a path leads to. A whole tree is never taken out. -/
def OutlastsLifting (tree : Node) (path : Path) : Prop :=
  ∃ own found, root.standing? tree path = some own ∧ tree.at? path = some found ∧
    (path = [] ∨ own.elides found = false)

theorem exists_liftedPath?_iff {tree : Node} {path : Path} :
    (∃ landing, tree.liftedPath? path = some landing) ↔ tree.OutlastsLifting path := by
  cases path with
  | nil => simp [liftedPath?, OutlastsLifting, standing?]
  | cons place rest =>
      unfold OutlastsLifting liftedPath?
      simp only [exists_standing?_cons_iff, Option.bind_eq_some_iff, Option.map_eq_some_iff,
        reduceCtorEq, false_or, ← exists_landing?_iff]
      constructor
      · rintro ⟨_, child, hchild, landing, hlanding, -⟩
        exact ⟨child, hchild, landing, hlanding⟩
      · rintro ⟨child, hchild, landing, hlanding⟩
        exact ⟨_, child, hchild, landing, hlanding, rfl⟩

instance (tree : Node) (path : Path) : Decidable (tree.OutlastsLifting path) :=
  decidable_of_iff _ (Option.isSome_iff_exists.trans exists_liftedPath?_iff)

theorem at?_liftEmbeds {tree : Node} {path landing : Path}
    (h : tree.liftedPath? path = some landing) :
    ∃ own found given, root.standing? tree path = some own ∧ tree.at? path = some found ∧
      (given = none ∨ found.is NodeType.container = true) ∧
      tree.liftEmbeds.at? landing = some ⟨own.kept found given, own.liftedBelow found⟩ := by
  rw [liftEmbeds_eq]
  cases path with
  | nil =>
      obtain rfl := Option.some.inj h
      exact ⟨root, tree, none, rfl, rfl, Or.inl rfl, rfl⟩
  | cons place rest =>
      rw [liftedPath?, Option.bind_eq_some_iff] at h
      obtain ⟨child, hchild, hbelow⟩ := h
      obtain ⟨below, hlanding, rfl⟩ := Option.map_eq_some_iff.1 hbelow
      obtain ⟨own, found, given, hown, hfound, -, hgiven, hat⟩ :=
        at?_lifted default hlanding
          (handed_eq_none_or (mem_siblings_of_child? hchild))
      exact ⟨own, found, given, standing?_cons hchild rest ▸ hown,
        at?_of_child? hchild rest ▸ hfound, hgiven, at?_liftedBelow _ hchild hlanding hat⟩

/-! ## What the standing of a node depends on -/

theorem isSoleContainer_eq_types (siblings : List Node) :
    isSoleContainer siblings = (siblings.map (fun node => node.type) == [NodeType.container]) := by
  match siblings with
  | [] => rfl
  | [node] => simp [isSoleContainer, Attributes.is]
  | _ :: _ :: _ => simp [isSoleContainer]

theorem isSome_soleEmbed?_eq_types (siblings : List Node) :
    (soleEmbed? siblings).isSome =
      (((siblings.map (fun node => node.type)).filter (· == NodeType.embed)).length == 1) := by
  rw [List.filter_map, List.length_map]
  change _ = ((siblings.filter (fun child => child.is NodeType.embed)).length == 1)
  unfold soleEmbed?
  generalize siblings.filter (fun child => child.is NodeType.embed) = embeds
  match embeds with
  | [] => rfl
  | [_] => rfl
  | _ :: _ :: _ => simp

theorem types_counted (strip : Bool) (children : List Node) :
    (counted strip children).map (fun node => node.type) =
      (children.map (fun node => node.type)).filter (fun type =>
        !(strip && (type == NodeType.caption || type == NodeType.legend))) := by
  rw [List.filter_map]
  rfl

namespace Standing

variable {standing : Standing} {node other : Node}

theorem below_congr {child changed : Attributes} (htype : node.type = other.type)
    (hdisposition : node.disposition = other.disposition)
    (hchildren : node.children.map (fun child => child.type) =
      other.children.map (fun child => child.type))
    (hchild : child.type = changed.type) :
    standing.below node child = standing.below other changed := by
  have hsiblings : (standing.siblings node).map (fun child => child.type) =
      (standing.siblings other).map (fun child => child.type) := by
    unfold siblings
    rw [types_counted, types_counted, hchildren]
  have hsole : isSoleContainer (standing.siblings node) =
      isSoleContainer (standing.siblings other) := by
    rw [isSoleContainer_eq_types, isSoleContainer_eq_types, hsiblings]
  have htaken : (standing.taken? node).isSome = (standing.taken? other).isSome := by
    have hcontainer : node.is NodeType.container = other.is NodeType.container := by
      simp [Attributes.is, htype]
    unfold taken? takenOver?
    rw [hcontainer, hdisposition]
    split
    · rw [isSome_soleEmbed?_eq_types, isSome_soleEmbed?_eq_types, hsiblings]
    · rfl
  have hembed : child.is NodeType.embed = changed.is NodeType.embed := by
    simp [Attributes.is, hchild]
  unfold below childRole
  rw [hsole, htaken, hembed]

end Standing

theorem type_modifyAt {f : Node → Node} (hf : ∀ node, (f node).type = node.type) (path : Path)
    (node : Node) : (modifyAt f path node).type = node.type :=
  field_modifyAt (·.type) hf path node

theorem types_modify {f : Node → Node} (hf : ∀ node, (f node).type = node.type) (place : Nat)
    (children : List Node) : (children.modify place f).map (fun node => node.type) =
      children.map (fun node => node.type) := by
  induction children generalizing place with
  | nil => cases place <;> rfl
  | cons child rest ih =>
      cases place with
      | zero => simp [hf]
      | succ place => simp [ih]

namespace Standing

variable {standing : Standing} {node : Node} {f : Node → Node}

theorem child?_modifyAt (hf : ∀ node, (f node).type = node.type) (place : Nat)
    (path : Path) : standing.child? (modifyAt f (place :: path) node) place =
      (standing.child? node place).map (modifyAt f path) := by
  unfold child?
  rw [children_modifyAt_cons, List.getElem?_modify_eq]
  cases node.children[place]? with
  | none => rfl
  | some child =>
      have hcaption : isCaption (modifyAt f path child).toAttributes =
          isCaption child.toAttributes := by
        simp only [isCaption, Attributes.is, type_modifyAt hf]
      rw [Option.map_eq_map, Option.map_some, Option.filter_some, Option.filter_some, hcaption]
      split
      · rfl
      · rfl

theorem child?_modifyAt_of_ne {place other : Nat} (hne : place ≠ other) (path : Path) :
    standing.child? (modifyAt f (place :: path) node) other = standing.child? node other := by
  unfold child?
  rw [children_modifyAt_cons, List.getElem?_modify_ne _ _ hne]

theorem standing?_modifyAt (hf : ∀ node, (f node).type = node.type) {path other : Path}
    (hpath : ¬ (other <+: path ∧ other ≠ path)) :
    standing.standing? (modifyAt f other node) path = standing.standing? node path := by
  induction path generalizing standing node other with
  | nil => rfl
  | cons place rest ih =>
      cases other with
      | nil => exact absurd ⟨List.nil_prefix, by simp⟩ hpath
      | cons place' rest' =>
          have hbelow (child changed : Node) (hchild : child.type = changed.type) :
              standing.below (modifyAt f (place' :: rest') node) child.toAttributes =
                standing.below node changed.toAttributes :=
            below_congr rfl rfl (types_modify (type_modifyAt hf rest') place' node.children) hchild
          rw [standing?, standing?]
          by_cases hplace : place' = place
          · subst hplace
            have hrest : ¬ (rest' <+: rest ∧ rest' ≠ rest) := by
              simpa [List.prefix_cons_inj] using hpath
            rw [child?_modifyAt hf]
            cases standing.child? node place' with
            | none => rfl
            | some child =>
                change (standing.below _ _).standing? _ _ = (standing.below _ _).standing? _ _
                rw [hbelow _ child (type_modifyAt hf rest' child), ih hrest]
          · rw [child?_modifyAt_of_ne hplace]
            cases standing.child? node place with
            | none => rfl
            | some child =>
                change (standing.below _ _).standing? _ _ = (standing.below _ _).standing? _ _
                rw [hbelow child child rfl]

end Standing

end CrossDoc.Node
