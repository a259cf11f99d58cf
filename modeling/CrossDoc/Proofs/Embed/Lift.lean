import CrossDoc.Embed.Lift
import CrossDoc.Proofs.Node.Walk

/-!
# Lifting node by node

Lifting marks wrappers in two passes and splices them out in a third. Here the three are one: what
becomes of a node depends on its standing with its parent only, and is either the node with what its
children become (`lifted_of_elides_eq_false`) or, where the node is a wrapper, just what they become
(`lifted_of_elides`).
-/

namespace CrossDoc.Node

theorem liftElided_eq (tree : Node) :
    tree.liftElided = ⟨tree.toAttributes, liftAll tree.children⟩ := by
  cases tree
  rw [liftElided]

theorem toAttributes_liftElided (tree : Node) :
    tree.liftElided.toAttributes = tree.toAttributes := by
  rw [liftElided_eq]

theorem isElided_liftElided (tree : Node) : tree.liftElided.isElided = tree.isElided := by
  rw [isElided, toAttributes_liftElided]
  rfl

/-- What is left of a node in its parent's place: the node or, if it has a mark, its children. -/
def remnant (tree : Node) : List Node :=
  if tree.liftElided.isElided then tree.liftElided.children else [tree.liftElided]

theorem remnant_of_elided {tree : Node} (h : tree.isElided = true) :
    tree.remnant = liftAll tree.children := by
  rw [remnant, isElided_liftElided, if_pos h, liftElided_eq]

theorem remnant_of_keep {tree : Node} (h : tree.isElided = false) :
    tree.remnant = [tree.liftElided] := by
  rw [remnant, isElided_liftElided, h]
  rfl

theorem liftAll_cons (tree : Node) (rest : List Node) :
    liftAll (tree :: rest) = tree.remnant ++ liftAll rest := by
  rw [liftAll, remnant]
  split
  · rfl
  · rfl

theorem liftAll_eq_flatMap (trees : List Node) : liftAll trees = trees.flatMap remnant := by
  induction trees with
  | nil => rw [liftAll]; rfl
  | cons tree rest ih => rw [liftAll_cons, List.flatMap_cons, ih]

theorem markSoleAll_eq_map (strip : Bool) (role : Attributes → Role) (siblings : List Node) :
    markSoleAll strip role siblings =
      (counted strip siblings).map (fun node => markSole strip (role node.toAttributes) node) := by
  induction siblings with
  | nil => rw [markSoleAll]; rfl
  | cons node rest ih =>
      rw [markSoleAll, counted, List.filter_cons, ih]
      cases hdrop : strip && isCaption node.toAttributes with
      | true => simp [counted]
      | false => simp [counted]

def given (source : Option (Option Dependency)) (node : Node) : Node :=
  { node with source := source.getD node.source }

@[simp] theorem given_none (node : Node) : node.given none = node := by
  cases node
  rfl

theorem markWrappersAll_eq_map (source : Option (Option Dependency)) (siblings : List Node) :
    markWrappersAll source siblings =
      siblings.map (fun node => (markWrappers node).given source) := by
  induction siblings with
  | nil => rw [markWrappersAll]; rfl
  | cons node rest ih =>
      rw [markWrappersAll, List.map_cons, ih]
      rfl

theorem isSoleContainer_map {f : Node → Node} (h : ∀ node, (f node).type = node.type)
    (siblings : List Node) : isSoleContainer (siblings.map f) = isSoleContainer siblings := by
  match siblings with
  | [] => rfl
  | [node] => simp [isSoleContainer, Attributes.is, h]
  | _ :: _ :: _ => rfl

theorem is_container_of_mem {siblings : List Node} {node : Node}
    (hsole : isSoleContainer siblings = true) (hnode : node ∈ siblings) :
    node.is NodeType.container = true := by
  match siblings with
  | [] => simp at hnode
  | [only] => exact List.mem_singleton.1 hnode ▸ hsole
  | _ :: _ :: _ => simp [isSoleContainer] at hsole

theorem type_markSole (strip : Bool) (role : Role) (node : Node) :
    (markSole strip role node).type = node.type := by
  obtain ⟨attributes, children⟩ := node
  rw [markSole]
  rfl

/-! ## One node -/

/-- What a node is to its parent: whether captions are dropped there, and its role. -/
structure Standing where
  strip : Bool
  role : Role
deriving DecidableEq, Repr

namespace Standing

def plain (strip : Bool) : Standing := { strip, role := .plain }

@[simp] theorem strip_plain (strip : Bool) : (plain strip).strip = strip := rfl

@[simp] theorem role_plain (strip : Bool) : (plain strip).role = .plain := rfl

theorem eq_plain {standing : Standing} (h : standing.role = .plain) :
    standing = plain standing.strip := by
  cases standing
  cases h
  rfl

def root : Standing := plain false

variable (standing : Standing) (node : Node)

def strips : Bool := standing.strip || standing.role = .inner

def siblings : List Node := counted standing.strips node.children

def taken? : Option Node :=
  takenOver? standing.role node.toAttributes (standing.siblings node)

def marked : Attributes :=
  markedAttributes standing.role (standing.taken? node) node.toAttributes

def wraps : Bool := wrapsContainer (standing.marked node) (standing.siblings node)

def elides : Bool := (standing.marked node).disposition == .elide || standing.wraps node

/-- The source that a node hands to its children. -/
def handed : Option (Option Dependency) :=
  if standing.wraps node then some (standing.marked node).source else none

def below (child : Attributes) : Standing where
  strip := standing.strips
  role := childRole standing.role (standing.taken? node) (standing.siblings node) child

/-- The attributes of a node after all marks, where it was handed a source or none. -/
def kept (source : Option (Option Dependency)) : Attributes :=
  { standing.marked node with
    source := source.getD (standing.marked node).source
    disposition := if standing.elides node then .elide else .keep }

def mark (source : Option (Option Dependency)) : Node :=
  (markWrappers (markSole standing.strip standing.role node)).given source

def lifted (source : Option (Option Dependency)) : List Node :=
  let marked := (standing.mark node source).liftElided
  if marked.isElided then marked.children else [marked]

def liftedBelow : List Node :=
  (standing.siblings node).flatMap (fun child =>
    (standing.below node child.toAttributes).lifted child (standing.handed node))

/-! ### The three passes as one -/

theorem markSole_eq : markSole standing.strip standing.role node =
    ⟨standing.marked node, (standing.siblings node).map (fun child =>
      markSole (standing.below node child.toAttributes).strip
        (standing.below node child.toAttributes).role child)⟩ := by
  obtain ⟨attributes, children⟩ := node
  rw [markSole, markSoleAll_eq_map]
  rfl

theorem isSoleContainer_markSole : isSoleContainer ((standing.siblings node).map (fun child =>
      markSole (standing.below node child.toAttributes).strip
        (standing.below node child.toAttributes).role child)) =
    isSoleContainer (standing.siblings node) :=
  isSoleContainer_map (fun _ => type_markSole _ _ _) _

theorem mark_eq (source : Option (Option Dependency)) : standing.mark node source =
    ⟨standing.kept node source, (standing.siblings node).map (fun child =>
      (standing.below node child.toAttributes).mark child (standing.handed node))⟩ := by
  have hwraps : wrapsContainer (standing.marked node) ((standing.siblings node).map (fun child =>
      markSole (standing.below node child.toAttributes).strip
        (standing.below node child.toAttributes).role child)) = standing.wraps node := by
    unfold wrapsContainer wraps
    rw [isSoleContainer_markSole]
    rfl
  unfold mark
  rw [markSole_eq, markWrappers, hwraps]
  cases h : standing.wraps node with
  | true => simp [given, kept, elides, handed, h, markWrappersAll_eq_map, Function.comp_def]
  | false =>
      have hdisposition : (standing.marked node).disposition =
          if (standing.marked node).disposition = .elide then .elide else .keep := by
        cases (standing.marked node).disposition <;> rfl
      simpa [given, kept, elides, handed, h, markWrappersAll_eq_map, Function.comp_def]
        using hdisposition

theorem liftElided_mark (source : Option (Option Dependency)) :
    (standing.mark node source).liftElided =
      ⟨standing.kept node source, standing.liftedBelow node⟩ := by
  rw [mark_eq, liftElided, liftAll_eq_flatMap, List.flatMap_map]
  rfl

theorem lifted_of_elides (source : Option (Option Dependency))
    (h : standing.elides node = true) :
    standing.lifted node source = standing.liftedBelow node := by
  unfold lifted
  rw [liftElided_mark]
  simp [isElided, kept, h]

theorem lifted_of_elides_eq_false (source : Option (Option Dependency))
    (h : standing.elides node = false) :
    standing.lifted node source = [⟨standing.kept node source, standing.liftedBelow node⟩] := by
  unfold lifted
  rw [liftElided_mark]
  simp [isElided, kept, h]

theorem mark_root : root.mark node none = node.markLifted := by
  rw [mark, given_none]
  rfl

theorem liftEmbeds_eq :
    node.liftEmbeds = ⟨root.kept node none, root.liftedBelow node⟩ := by
  rw [← liftElided_mark, mark_root]
  rfl

end Standing

end CrossDoc.Node
