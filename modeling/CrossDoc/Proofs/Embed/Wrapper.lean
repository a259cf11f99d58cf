import CrossDoc.Proofs.Embed.Lifted
import CrossDoc.Proofs.Node.Lineage

/-!
# Wrappers

What lifting takes out of a tree, told for each node from the node and what is above it: some nodes
are dropped with all that is below them (`isDropped`), some are replaced by their children
(`isReplaced`), and the others stay (`stays`), with the attributes `attributesLeft`. The standing
that the passes give to a node (`standing`) says the same: it tells whether a node is marked
(`elides_standing`) and what it hands to its children (`handed_standing`).
-/

namespace CrossDoc

open Node Standing

namespace Lineage

/-! ## What is taken out -/

mutual
/-- Whether a node is the only embed among the children of a container that stays. -/
def isSoleEmbed : Lineage → Bool
  | embed :: container :: above =>
    embed.is NodeType.embed && container.is NodeType.container &&
      (soleEmbed? container.children).isSome && !isInner (container :: above)
  | _ => false

/-- Whether a node is a container and all that a sole embed holds. -/
def isInner : Lineage → Bool
  | container :: embed :: above =>
    container.is NodeType.container && isSoleEmbed (embed :: above) &&
      isSoleContainer
        (counted (isInner (embed :: above) || isBelowInner (embed :: above)) embed.children)
  | _ => false

def isBelowInner : Lineage → Bool
  | _ :: parent :: above => isInner (parent :: above) || isBelowInner (parent :: above)
  | _ => false
end

def shown : Lineage → List Node
  | [] => []
  | node :: above =>
    counted (isInner (node :: above) || isBelowInner (node :: above)) node.children

/-- Whether a node is dropped: it is a caption or a legend below an inner container, or in one. -/
def isDropped : Lineage → Bool
  | [] => false
  | node :: above =>
    isCaption node.toAttributes && isBelowInner (node :: above) || isDropped above

def isCover : Lineage → Bool
  | [] => false
  | embed :: above => embed.is NodeType.embed && isSoleContainer (shown (embed :: above))

/-- Whether a node is an embed below the root that says nothing of its own. -/
def isWrapper : Lineage → Bool
  | embed :: parent :: above =>
    isSoleEmbed (embed :: parent :: above) || isCover (embed :: parent :: above)
  | _ => false

def isReplaced (lineage : Lineage) : Bool :=
  !isDropped lineage && (isWrapper lineage || isInner lineage)

def stays (lineage : Lineage) : Bool :=
  !isDropped lineage && !isWrapper lineage && !isInner lineage

/-! ## What is left -/

/-- The embed that a container takes its source from: the one around it, if that holds nothing else,
or else the only one among its children. -/
def lender? : Lineage → Option Node
  | [] => none
  | [container] => soleEmbed? container.children
  | container :: embed :: above =>
    if isCover (embed :: above) then some embed else soleEmbed? container.children

def sourceLeft : Lineage → Option Dependency
  | [] => none
  | node :: above =>
    if node.is NodeType.container then
      match lender? (node :: above) with
      | some embed => embed.source
      | none => node.source
    else node.source

/-- The attributes of a node that stays. The root stays with the mark of a wrapper if it is one. -/
def attributesLeft : Lineage → Attributes
  | [] => default
  | [root] =>
    { root.toAttributes with
      source := sourceLeft [root]
      disposition := if isCover [root] then .elide else root.disposition }
  | node :: above => { node.toAttributes with source := sourceLeft (node :: above) }

def chainLeft : Lineage → List Attributes
  | [] => []
  | node :: above =>
    if stays (node :: above) then attributesLeft (node :: above) :: chainLeft above
    else chainLeft above

/-! ## How these hang together -/

variable {node child parent : Node} {above lineage : Lineage}

theorem is_embed_of_isSoleEmbed (h : isSoleEmbed (node :: above) = true) :
    node.is NodeType.embed = true := by
  cases above with
  | nil => simp [isSoleEmbed] at h
  | cons parent above =>
      simp only [isSoleEmbed, Bool.and_eq_true] at h
      exact h.1.1.1

theorem is_container_of_isInner (h : isInner (node :: above) = true) :
    node.is NodeType.container = true := by
  cases above with
  | nil => simp [isInner] at h
  | cons parent above =>
      simp only [isInner, Bool.and_eq_true] at h
      exact h.1.1

theorem isInner_of_isSoleEmbed (h : isSoleEmbed (node :: above) = true) :
    isInner (node :: above) = false := by
  cases hinner : isInner (node :: above) with
  | false => rfl
  | true =>
      have hcontainer := is_container_of_isInner hinner
      rw [not_container_of_embed (is_embed_of_isSoleEmbed h)] at hcontainer
      exact absurd hcontainer Bool.false_ne_true

theorem is_embed_of_isCover (h : isCover (node :: above) = true) :
    node.is NodeType.embed = true := by
  simp only [isCover, Bool.and_eq_true] at h
  exact h.1

theorem isSoleContainer_of_isCover (h : isCover (node :: above) = true) :
    isSoleContainer (shown (node :: above)) = true := by
  simp only [isCover, Bool.and_eq_true] at h
  exact h.2

theorem isDropped_of_stays (h : stays lineage = true) : isDropped lineage = false := by
  simp only [stays, Bool.and_eq_true, Bool.not_eq_true'] at h
  exact h.1.1

theorem isSoleEmbed_of_stays (h : stays (node :: above) = true) :
    isSoleEmbed (node :: above) = false := by
  cases above with
  | nil => rfl
  | cons parent above =>
      simp only [stays, isWrapper, Bool.and_eq_true, Bool.not_eq_true', Bool.or_eq_false_iff] at h
      exact h.1.2.1

theorem isInner_of_stays (h : stays (node :: above) = true) : isInner (node :: above) = false := by
  simp only [stays, Bool.and_eq_true, Bool.not_eq_true'] at h
  exact h.2

theorem not_cover_of_stays (h : stays (node :: parent :: above) = true) :
    isCover (node :: parent :: above) = false := by
  simp only [stays, isWrapper, Bool.and_eq_true, Bool.not_eq_true', Bool.or_eq_false_iff] at h
  exact h.1.2.2

theorem not_cover_of_isInner (h : isInner (node :: above) = true) :
    isCover (node :: above) = false := by
  have hcontainer := is_container_of_isInner h
  cases hembed : node.is NodeType.embed with
  | false => simp [isCover, hembed]
  | true =>
      rw [not_container_of_embed hembed] at hcontainer
      exact absurd hcontainer Bool.false_ne_true

/-! ## Standings -/

def standing (lineage : Lineage) : Standing where
  strip := isBelowInner lineage
  role :=
    if isSoleEmbed lineage then .soleEmbed
    else if isInner lineage then .inner
    else .plain

theorem role_standing_eq_soleEmbed_iff :
    (standing lineage).role = .soleEmbed ↔ isSoleEmbed lineage = true := by
  unfold standing
  cases isSoleEmbed lineage with
  | true => simp
  | false => cases isInner lineage <;> simp

theorem role_standing_eq_inner_iff :
    (standing (node :: above)).role = .inner ↔ isInner (node :: above) = true := by
  unfold standing
  cases hsole : isSoleEmbed (node :: above) with
  | true => simp [isInner_of_isSoleEmbed hsole]
  | false => cases isInner (node :: above) <;> simp

theorem strips_standing (node : Node) (above : Lineage) : (standing (node :: above)).strips =
    (isInner (node :: above) || isBelowInner (node :: above)) := by
  unfold Standing.strips
  rw [Bool.or_comm]
  congr 1
  rw [Bool.eq_iff_iff, decide_eq_true_iff]
  exact role_standing_eq_inner_iff

theorem siblings_standing (node : Node) (above : Lineage) :
    (standing (node :: above)).siblings node = shown (node :: above) := by
  rw [siblings, strips_standing]
  rfl

theorem soleEmbed?_counted (strip : Bool) (children : List Node) :
    soleEmbed? (counted strip children) = soleEmbed? children := by
  have hfilter : (counted strip children).filter (fun child => child.is NodeType.embed) =
      children.filter (fun child => child.is NodeType.embed) := by
    unfold counted
    rw [List.filter_filter]
    refine List.filter_congr (fun child _ => ?_)
    cases hembed : child.is NodeType.embed with
    | false => rfl
    | true => simp [not_caption_of_embed hembed]
  unfold soleEmbed?
  rw [hfilter]

theorem taken?_standing (hkeep : node.disposition = .keep) (above : Lineage) :
    (standing (node :: above)).taken? node =
      if node.is NodeType.container && !isInner (node :: above) then soleEmbed? node.children
      else none := by
  have hrole : ((standing (node :: above)).role != .inner) = !isInner (node :: above) := by
    rw [Bool.eq_iff_iff, bne_iff_ne, Bool.not_eq_true', ← Bool.not_eq_true]
    exact not_congr role_standing_eq_inner_iff
  unfold taken? takenOver? siblings
  rw [soleEmbed?_counted, hrole, hkeep]
  simp

theorem below_standing (hkeep : node.disposition = .keep)
    (hchild : child ∈ shown (node :: above)) :
    (standing (node :: above)).below node child.toAttributes =
      standing (child :: node :: above) := by
  have hstrip := strips_standing node above
  have hsole : (((standing (node :: above)).taken? node).isSome && child.is NodeType.embed) =
      isSoleEmbed (child :: node :: above) := by
    rw [taken?_standing hkeep, isSoleEmbed]
    cases child.is NodeType.embed <;> cases node.is NodeType.container <;>
      cases isInner (node :: above) <;> simp
  have hinner : (decide ((standing (node :: above)).role = .soleEmbed) &&
      isSoleContainer ((standing (node :: above)).siblings node)) =
        isInner (child :: node :: above) := by
    have hrole : decide ((standing (node :: above)).role = .soleEmbed) =
        isSoleEmbed (node :: above) := by
      rw [Bool.eq_iff_iff, decide_eq_true_iff]
      exact role_standing_eq_soleEmbed_iff
    rw [siblings_standing, hrole, isInner]
    change (_ && isSoleContainer (shown (node :: above))) =
      (_ && _ && isSoleContainer (shown (node :: above)))
    cases hshown : isSoleContainer (shown (node :: above)) with
    | false => simp
    | true => simp [is_container_of_mem hshown hchild]
  unfold below childRole
  rw [hstrip, hsole, hinner]
  rfl

theorem disposition_marked_standing (hkeep : node.disposition = .keep) (above : Lineage) :
    ((standing (node :: above)).marked node).disposition =
      if isSoleEmbed (node :: above) || isInner (node :: above) then .elide else .keep := by
  unfold marked markedAttributes standing
  rw [hkeep]
  cases isSoleEmbed (node :: above) with
  | true => rfl
  | false =>
      cases isInner (node :: above) with
      | true => rfl
      | false => rfl

theorem wraps_standing (hkeep : node.disposition = .keep) (above : Lineage) :
    (standing (node :: above)).wraps node =
      (!isSoleEmbed (node :: above) && isCover (node :: above)) := by
  have hcover : (((standing (node :: above)).marked node).is NodeType.embed &&
      isSoleContainer ((standing (node :: above)).siblings node)) = isCover (node :: above) := by
    rw [siblings_standing]
    rfl
  unfold wraps wrapsContainer
  rw [disposition_marked_standing hkeep, Bool.and_right_comm, hcover, Bool.and_comm]
  cases hinner : isInner (node :: above) with
  | true => simp [not_cover_of_isInner hinner]
  | false =>
      cases isSoleEmbed (node :: above) with
      | true => rfl
      | false => rfl

theorem elides_standing (hkeep : node.disposition = .keep) (above : Lineage) :
    (standing (node :: above)).elides node =
      (isSoleEmbed (node :: above) || isCover (node :: above) || isInner (node :: above)) := by
  unfold elides
  rw [wraps_standing hkeep, disposition_marked_standing hkeep]
  cases isSoleEmbed (node :: above) with
  | true => rfl
  | false =>
      cases isInner (node :: above) with
      | true => simp
      | false => simp

theorem handed_standing (hkeep : parent.disposition = .keep) (above : Lineage) :
    (standing (parent :: above)).handed parent =
      if !isSoleEmbed (parent :: above) && isCover (parent :: above) then some parent.source
      else none := by
  unfold handed
  rw [wraps_standing hkeep]
  cases hcover : isCover (parent :: above) with
  | false => simp
  | true =>
      have hsource : ((standing (parent :: above)).marked parent).source = parent.source := by
        unfold marked markedAttributes
        rw [taken?_standing hkeep, not_container_of_embed (is_embed_of_isCover hcover)]
        rfl
      rw [hsource]

theorem source_marked_standing (hkeep : node.disposition = .keep)
    (h : isInner (node :: above) = false) :
    ((standing (node :: above)).marked node).source =
      match if node.is NodeType.container then soleEmbed? node.children else none with
      | some embed => embed.source
      | none => node.source := by
  have htaken : (standing (node :: above)).taken? node =
      if node.is NodeType.container then soleEmbed? node.children else none := by
    rw [taken?_standing hkeep, h, Bool.not_false, Bool.and_true]
  exact congrArg (fun taken : Option Node =>
    match taken with
    | some embed => embed.source
    | none => node.source) htaken

end Lineage

end CrossDoc
