import CrossDoc.Proofs.Embed.Splice
import CrossDoc.Proofs.Node.Carried

/-!
# What lifting leaves alone

Lifting takes nodes out and never adds any (`count_lifted_le`), so a tree that comes out as large as
it went in has lost nothing. In such a tree there is no wrapper and nothing that is dropped
(`settled_of_total_eq`), and a tree like that comes out as it went in (`lifted_of_settled`).
-/

namespace CrossDoc.Node

/--
Nothing about a node makes lifting take it or a child of it out: it is no caption or legend where
those are dropped, no container with just one embed, and no embed that holds just a container.
-/
structure IsStill (strip : Bool) (node : Node) : Prop where
  stays : (strip && isCaption node.toAttributes) = false
  notTaking : node.is NodeType.container = true → soleEmbed? node.children = none
  notWrapping : node.is NodeType.embed = true → isSoleContainer node.children = false

instance (strip : Bool) (node : Node) : Decidable (node.IsStill strip) :=
  decidable_of_iff ((strip && isCaption node.toAttributes) = false ∧
    (node.is NodeType.container = true → soleEmbed? node.children = none) ∧
      (node.is NodeType.embed = true → isSoleContainer node.children = false))
    ⟨fun ⟨stays, notTaking, notWrapping⟩ => ⟨stays, notTaking, notWrapping⟩,
      fun ⟨stays, notTaking, notWrapping⟩ => ⟨stays, notTaking, notWrapping⟩⟩

def Settled (strip : Bool) (node : Node) : Prop := ∀ found ∈ node.nodes, found.IsStill strip

instance (strip : Bool) (node : Node) : Decidable (node.Settled strip) :=
  inferInstanceAs (Decidable (∀ found ∈ node.nodes, found.IsStill strip))

theorem settled_iff {strip : Bool} {node : Node} : node.Settled strip ↔
    node.IsStill strip ∧ ∀ child ∈ node.children, child.Settled strip :=
  forall_mem_nodes_iff

/-! ## Sizes -/

def size (node : Node) : Nat := node.nodes.length

def total (trees : List Node) : Nat := (nodesOf trees).length

theorem total_nil : total [] = 0 := rfl

theorem total_cons (tree : Node) (rest : List Node) :
    total (tree :: rest) = tree.size + total rest := by
  simp [total, size, nodesOf]

theorem total_singleton (node : Node) : total [node] = node.size := by
  rw [total_cons, total_nil, Nat.add_zero]

theorem size_eq (node : Node) : node.size = total node.children + 1 := by
  unfold size total
  rw [nodes_eq_cons, nodesOf_eq_flatMap, List.length_cons]

theorem size_pos (node : Node) : 0 < node.size := by
  have h := node.size_eq
  omega

/-! ## Counting by type -/

/-- The number of nodes of a list of trees that have a type that `p` holds of. -/
def tally (p : String → Bool) (trees : List Node) : Nat :=
  (nodesOf trees).countP (fun node => p node.type)

variable {p : String → Bool}

theorem tally_eq_count (p : String → Bool) (trees : List Node) :
    tally p trees = count (fun attributes => p attributes.type) trees := by
  rw [count, carried, List.countP_map]
  rfl

theorem tally_singleton (node : Node) :
    tally p [node] = tally p node.children + if p node.type then 1 else 0 := by
  simp only [tally_eq_count]
  exact count_singleton node

theorem tally_eq_total (trees : List Node) : tally (fun _ => true) trees = total trees := by
  simp [tally, total]

namespace Standing

variable {standing : Standing} {node : Node}

/-- What a child leaves, dropped or not. -/
def left (standing : Standing) (node child : Node) : List Node :=
  if standing.strips && isCaption child.toAttributes then []
  else (standing.below node child.toAttributes).lifted child (standing.handed node)

theorem flatMap_counted_eq_flatMap_left (children : List Node) :
    (counted standing.strips children).flatMap (fun child =>
        (standing.below node child.toAttributes).lifted child (standing.handed node)) =
      children.flatMap (standing.left node) := by
  unfold counted
  induction children with
  | nil => rfl
  | cons child rest ih =>
      rw [List.filter_cons, List.flatMap_cons, left]
      cases hdrop : standing.strips && isCaption child.toAttributes with
      | true => simpa using ih
      | false => simpa using ih

theorem liftedBelow_eq_flatMap_left :
    standing.liftedBelow node = node.children.flatMap (standing.left node) :=
  flatMap_counted_eq_flatMap_left node.children

/-- Lifting gives nodes other marks and sources, and some properties do not depend on these. -/
def Ignores (q : Attributes → Bool) : Prop :=
  ∀ attributes source disposition, q { attributes with source, disposition } = q attributes

variable {q : Attributes → Bool}

theorem count_left_le_of (standing : Standing) (node child : Node)
    (h : ∀ (standing : Standing) source, count q (standing.lifted child source) ≤ count q [child]) :
    count q (standing.left node child) ≤ count q [child] := by
  unfold left
  split
  · exact Nat.zero_le _
  · exact h _ _

theorem count_lifted_le (hq : Ignores q) (standing : Standing) (node : Node)
    (source : Option (Option Dependency)) :
    count q (standing.lifted node source) ≤ count q [node] := by
  induction node using Node.induction generalizing standing source with
  | node attributes children ih =>
      have hbelow : count q (standing.liftedBelow ⟨attributes, children⟩) ≤ count q children := by
        rw [liftedBelow_eq_flatMap_left]
        exact count_flatMap_le (fun child hchild =>
          count_left_le_of standing ⟨attributes, children⟩ child (ih child hchild))
      rw [count_singleton]
      cases helides : standing.elides ⟨attributes, children⟩ with
      | true =>
          rw [lifted_of_elides _ _ _ helides]
          exact Nat.le_add_right_of_le hbelow
      | false =>
          have hkept : q (standing.kept ⟨attributes, children⟩ source) = q attributes :=
            hq attributes _ _
          rw [lifted_of_elides_eq_false _ _ _ helides, count_singleton, hkept]
          exact Nat.add_le_add_right hbelow _

theorem count_left_le (hq : Ignores q) (standing : Standing) (node child : Node) :
    count q (standing.left node child) ≤ count q [child] :=
  count_left_le_of standing node child (fun standing source =>
    count_lifted_le hq standing child source)

theorem count_liftedBelow_le (hq : Ignores q) (standing : Standing) (node : Node) :
    count q (standing.liftedBelow node) ≤ count q node.children := by
  rw [liftedBelow_eq_flatMap_left]
  exact count_flatMap_le (fun child _ => count_left_le hq standing node child)

variable (p) in
theorem tally_liftedBelow_le (standing : Standing) (node : Node) :
    tally p (standing.liftedBelow node) ≤ tally p node.children := by
  rw [tally_eq_count, tally_eq_count]
  exact count_liftedBelow_le (fun _ _ _ => rfl) standing node

theorem tally_lifted_lt_of_elides (source : Option (Option Dependency)) (hp : p node.type = true)
    (h : standing.elides node = true) :
    tally p (standing.lifted node source) < tally p [node] := by
  have hbelow := tally_liftedBelow_le p standing node
  rw [lifted_of_elides _ _ _ h, tally_singleton, if_pos hp]
  omega

theorem tally_left_eq (h : tally p (standing.liftedBelow node) = tally p node.children)
    {child : Node} (hchild : child ∈ node.children) :
    tally p (standing.left node child) = tally p [child] := by
  rw [tally_eq_count, tally_eq_count, liftedBelow_eq_flatMap_left] at h
  rw [tally_eq_count, tally_eq_count]
  exact count_eq_of_count_flatMap_eq
    (fun child _ => count_left_le (fun _ _ _ => rfl) standing node child) h child hchild

theorem total_liftedBelow_le (standing : Standing) (node : Node) :
    total (standing.liftedBelow node) ≤ total node.children := by
  have hle := tally_liftedBelow_le (fun _ => true) standing node
  rwa [tally_eq_total, tally_eq_total] at hle

theorem size_lifted_lt_of_elides (source : Option (Option Dependency))
    (h : standing.elides node = true) : total (standing.lifted node source) < node.size := by
  have hbelow := total_liftedBelow_le standing node
  rw [lifted_of_elides _ _ _ h, size_eq]
  omega

/-! ## Nothing lost -/

theorem total_left_eq (h : total (standing.liftedBelow node) = total node.children) {child : Node}
    (hchild : child ∈ node.children) : total (standing.left node child) = child.size := by
  rw [← tally_eq_total, ← tally_eq_total] at h
  have hleft := tally_left_eq h hchild
  rwa [tally_eq_total, tally_eq_total, total_singleton] at hleft

theorem stays_of_total_eq (h : total (standing.liftedBelow node) = total node.children)
    {child : Node} (hchild : child ∈ node.children) :
    (standing.strips && isCaption child.toAttributes) = false := by
  have hleft := total_left_eq h hchild
  have hpos := child.size_pos
  cases hdrop : standing.strips && isCaption child.toAttributes with
  | false => rfl
  | true =>
      rw [left, if_pos hdrop, total_nil] at hleft
      omega

theorem siblings_of_total_eq (h : total (standing.liftedBelow node) = total node.children) :
    standing.siblings node = node.children := by
  refine List.filter_eq_self.2 (fun child hchild => ?_)
  rw [stays_of_total_eq h hchild]
  rfl

theorem total_lifted_of_total_eq (h : total (standing.liftedBelow node) = total node.children)
    {child : Node} (hchild : child ∈ node.children) :
    total ((standing.below node child.toAttributes).lifted child (standing.handed node)) =
      child.size := by
  have hleft := total_left_eq h hchild
  rwa [left, stays_of_total_eq h hchild, if_neg Bool.false_ne_true] at hleft

theorem mem_of_soleEmbed? {siblings : List Node} {embed : Node}
    (h : soleEmbed? siblings = some embed) :
    embed ∈ siblings ∧ embed.is NodeType.embed = true := by
  unfold soleEmbed? at h
  split at h
  · rename_i only hfilter
    obtain rfl := Option.some.inj h
    exact List.mem_filter.1 (hfilter ▸ List.mem_singleton_self only)
  · simp at h

theorem taken?_of_tally_eq (hp : p NodeType.embed = true)
    (h : tally p (standing.liftedBelow node) = tally p node.children) :
    standing.taken? node = none := by
  by_contra htaken
  obtain ⟨embed, hembed⟩ := Option.ne_none_iff_exists'.1 htaken
  have hsole : soleEmbed? (standing.siblings node) = some embed := by
    unfold taken? takenOver? at hembed
    split at hembed
    · exact hembed
    · simp at hembed
  obtain ⟨hmem, his⟩ := mem_of_soleEmbed? hsole
  obtain ⟨hchild, hstays⟩ := List.mem_filter.1 hmem
  have hrole : (standing.below node embed.toAttributes).role = .soleEmbed := by
    simp [below, childRole, hembed, his]
  have helides : (standing.below node embed.toAttributes).elides embed = true := by
    simp [elides, marked, markedAttributes, hrole]
  have htype : embed.type = NodeType.embed := by simpa [Attributes.is] using his
  have hlt := tally_lifted_lt_of_elides (standing.handed node) (htype ▸ hp) helides
  have hleft := tally_left_eq h hchild
  rw [left, if_neg (fun hdrop => by simp [hdrop] at hstays)] at hleft
  exact Nat.lt_irrefl _ (hleft ▸ hlt)

theorem taken?_of_total_eq (h : total (standing.liftedBelow node) = total node.children) :
    standing.taken? node = none := by
  rw [← tally_eq_total, ← tally_eq_total] at h
  exact taken?_of_tally_eq rfl h

variable {strip : Bool}

theorem strips_plain : (plain strip).strips = strip := by simp [strips]

theorem below_plain (h : (plain strip).taken? node = none) (child : Attributes) :
    (plain strip).below node child = plain strip := by
  simp [below, childRole, h, strips_plain]
  simp [plain]

theorem total_liftedBelow_eq_of_size_eq {source : Option (Option Dependency)}
    (h : total (standing.lifted node source) = node.size) :
    standing.elides node = false ∧ total (standing.liftedBelow node) = total node.children := by
  cases helides : standing.elides node with
  | true =>
      have hlt := size_lifted_lt_of_elides source helides
      omega
  | false =>
      rw [lifted_of_elides_eq_false _ _ _ helides, total_singleton, size_eq, size_eq] at h
      exact ⟨rfl, Nat.succ.inj h⟩

theorem isStill_of_elides_eq_false (hstays : (strip && isCaption node.toAttributes) = false)
    (helides : (plain strip).elides node = false)
    (hsiblings : (plain strip).siblings node = node.children)
    (htaken : (plain strip).taken? node = none) : node.IsStill strip := by
  obtain ⟨hmark, hwraps⟩ := Bool.or_eq_false_iff.1 helides
  have hunmarked : ((plain strip).marked node).disposition ≠ .elide := by simpa using hmark
  have hkeep : node.disposition ≠ .elide := by
    simpa [marked, markedAttributes] using hunmarked
  refine { stays := hstays, notTaking := fun hcontainer => ?_, notWrapping := fun hembed => ?_ }
  · simpa [taken?, takenOver?, hcontainer, hkeep, hsiblings] using htaken
  · have hmarked : ((plain strip).marked node).is NodeType.embed = true := hembed
    simpa [wraps, wrapsContainer, hmarked, hunmarked, hsiblings] using hwraps

theorem settled_of_total_eq (h : total ((plain strip).liftedBelow node) = total node.children) :
    ∀ child ∈ node.children, child.Settled strip := by
  induction node using Node.induction with
  | node attributes children ih =>
      intro child hchild
      have hbelow := below_plain (taken?_of_total_eq h) child.toAttributes
      have hstays := stays_of_total_eq h hchild
      rw [strips_plain] at hstays
      have hsize := total_lifted_of_total_eq h hchild
      rw [hbelow] at hsize
      obtain ⟨helides, htotal⟩ := total_liftedBelow_eq_of_size_eq hsize
      exact settled_iff.2
        ⟨isStill_of_elides_eq_false hstays helides (siblings_of_total_eq htotal)
          (taken?_of_total_eq htotal), ih child hchild htotal⟩

/-! ## Nothing to lose -/

theorem siblings_of_settled (h : ∀ child ∈ node.children, child.Settled strip) :
    (plain strip).siblings node = node.children := by
  refine List.filter_eq_self.2 (fun child hchild => ?_)
  have hstill := (settled_iff.1 (h child hchild)).1
  rw [strips_plain, hstill.stays]
  rfl

theorem taken?_of_isStill (hstill : node.IsStill strip)
    (hsiblings : (plain strip).siblings node = node.children) :
    (plain strip).taken? node = none := by
  unfold taken? takenOver?
  rw [hsiblings]
  cases hcontainer : node.is NodeType.container with
  | false => simp
  | true => simp [hstill.notTaking hcontainer]

theorem marked_plain (htaken : (plain strip).taken? node = none) :
    (plain strip).marked node = node.toAttributes := by
  simp [marked, markedAttributes, htaken]

theorem wraps_of_isStill (hstill : node.IsStill strip)
    (htaken : (plain strip).taken? node = none)
    (hsiblings : (plain strip).siblings node = node.children) :
    (plain strip).wraps node = false := by
  unfold wraps wrapsContainer
  rw [marked_plain htaken, hsiblings]
  cases hembed : node.is NodeType.embed with
  | false => simp
  | true => simp [hstill.notWrapping hembed]

theorem mark_eq_given (htaken : (plain strip).taken? node = none)
    (hwraps : (plain strip).wraps node = false)
    (hsiblings : (plain strip).siblings node = node.children)
    (hbelow : ∀ child ∈ node.children, (plain strip).mark child none = child)
    (source : Option (Option Dependency)) :
    (plain strip).mark node source = node.given source := by
  have hhanded : (plain strip).handed node = none := by simp [handed, hwraps]
  have hkept : (plain strip).kept node source =
      { node.toAttributes with source := source.getD node.source } := by
    have hsame : (if node.disposition = .elide then Disposition.elide else .keep) =
        node.disposition := by
      cases node.disposition
      · rfl
      · rfl
    unfold kept elides
    rw [hwraps, marked_plain htaken]
    simp [hsame]
  have hchildren : node.children.map (fun child =>
      ((plain strip).below node child.toAttributes).mark child none) = node.children := by
    conv_rhs => rw [← List.map_id node.children]
    refine List.map_congr_left (fun child hchild => ?_)
    rw [below_plain htaken, hbelow child hchild, id]
  rw [mark_eq, hsiblings, hhanded, hkept, hchildren]
  rfl

/-- A settled tree gets no marks, though it may be handed a source. -/
theorem mark_of_settled (h : node.Settled strip) (source : Option (Option Dependency)) :
    (plain strip).mark node source = node.given source := by
  induction node using Node.induction generalizing source with
  | node attributes children ih =>
      obtain ⟨hstill, hsettled⟩ := settled_iff.1 h
      have hsiblings : (plain strip).siblings ⟨attributes, children⟩ = children :=
        siblings_of_settled hsettled
      have htaken := taken?_of_isStill hstill hsiblings
      exact mark_eq_given htaken (wraps_of_isStill hstill htaken hsiblings) hsiblings
        (fun child hchild => by rw [ih child hchild (hsettled child hchild), given_none]) source

theorem lifted_of_settled (hunmarked : node.Unmarked) (h : node.Settled strip)
    (source : Option (Option Dependency)) :
    (plain strip).lifted node source = [node.given source] := by
  obtain ⟨hkeep, hbelow⟩ := unmarked_iff.1 hunmarked
  have hgiven : (node.given source).UnmarkedBelow := hbelow
  have hstays : (node.given source).isElided = false := by simp [isElided, given, hkeep]
  unfold lifted
  rw [mark_of_settled h, liftElided_of_unmarkedBelow hgiven]
  exact if_neg (by simp [hstays])

theorem liftedBelow_of_settled (hunmarked : node.UnmarkedBelow)
    (h : ∀ child ∈ node.children, child.Settled strip)
    (htaken : (plain strip).taken? node = none) :
    (plain strip).liftedBelow node =
      node.children.map (Node.given ((plain strip).handed node)) := by
  unfold liftedBelow
  rw [siblings_of_settled h, ← List.flatMap_pure_eq_map]
  refine List.flatMap_congr (fun child hchild => ?_)
  rw [below_plain htaken]
  exact lifted_of_settled (hunmarked child hchild) (h child hchild) _

/-! ## The children of an embed -/

theorem given_some_eq_self_iff {child : Node} {source : Option Dependency} :
    child.given (some source) = child ↔ child.source = source := by
  constructor
  · intro h
    exact (congrArg (fun child => child.source) h).symm
  · rintro rfl
    cases child
    rfl

theorem map_given_eq_self_iff {source : Option (Option Dependency)} {children : List Node} :
    children.map (Node.given source) = children ↔
      ∀ child ∈ children, child.given source = child := by
  conv_lhs => rw [← List.map_id children, List.map_map, List.map_inj_left]
  rfl

theorem not_container_of_embed (h : node.is NodeType.embed = true) :
    node.is NodeType.container = false := by
  have htype : node.type = NodeType.embed := by simpa [Attributes.is] using h
  simp [Attributes.is, htype, NodeType.embed, NodeType.container]

theorem not_caption_of_embed (h : node.is NodeType.embed = true) :
    isCaption node.toAttributes = false := by
  have htype : node.type = NodeType.embed := by simpa [Attributes.is] using h
  simp [isCaption, Attributes.is, htype, NodeType.embed, NodeType.caption, NodeType.legend]

theorem taken?_of_embed (h : node.is NodeType.embed = true) : standing.taken? node = none := by
  simp [taken?, takenOver?, not_container_of_embed h]

theorem source_marked_of_embed (h : node.is NodeType.embed = true) :
    (standing.marked node).source = node.source := by
  simp [marked, markedAttributes, taken?_of_embed h]

theorem elides_of_embed (hembed : node.is NodeType.embed = true)
    (hkeep : node.disposition = .keep)
    (hsettled : ∀ child ∈ node.children, child.Settled strip) :
    (plain strip).elides node = isSoleContainer node.children := by
  unfold elides wraps wrapsContainer
  rw [marked_plain (taken?_of_embed hembed), hembed, hkeep, siblings_of_settled hsettled]
  rfl

theorem role_of_elides_eq_false (h : standing.elides node = false) : standing.role = .plain := by
  by_contra hrole
  simp [elides, marked, markedAttributes, hrole] at h

/--
An embed gets its children back just if they are settled and, should they be a single container,
that container has the embed's source already.
-/
theorem liftedBelow_eq_children_iff (hembed : node.is NodeType.embed = true)
    (hunmarked : node.Unmarked) :
    (plain strip).liftedBelow node = node.children ↔
      (∀ child ∈ node.children, child.Settled strip) ∧
        (isSoleContainer node.children = true →
          ∀ child ∈ node.children, child.source = node.source) := by
  obtain ⟨hkeep, hunmarked⟩ := unmarked_iff.1 hunmarked
  have htaken : (plain strip).taken? node = none := taken?_of_embed hembed
  have hmarked := marked_plain htaken
  have hchildren (hsettled : ∀ child ∈ node.children, child.Settled strip) :
      ((plain strip).liftedBelow node = node.children ↔
        (isSoleContainer node.children = true →
          ∀ child ∈ node.children, child.source = node.source)) := by
    have hsiblings := siblings_of_settled hsettled
    have hwraps : (plain strip).wraps node = isSoleContainer node.children := by
      simp [wraps, wrapsContainer, hmarked, hembed, hkeep, hsiblings]
    rw [liftedBelow_of_settled hunmarked hsettled htaken, map_given_eq_self_iff]
    cases hsole : isSoleContainer node.children with
    | true => simp [handed, hwraps, hsole, hmarked, given_some_eq_self_iff]
    | false => simp [handed, hwraps, hsole]
  constructor
  · intro h
    have hsettled := settled_of_total_eq (congrArg total h)
    exact ⟨hsettled, (hchildren hsettled).1 h⟩
  · rintro ⟨hsettled, hsource⟩
    exact (hchildren hsettled).2 hsource

end Standing

end CrossDoc.Node
