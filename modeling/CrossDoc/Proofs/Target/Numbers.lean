import CrossDoc.CommandLine.Slug
import CrossDoc.Proofs.Target.Enumeration
import CrossDoc.Proofs.Target.SectionNumber

/-!
# Numbering a page

One visit numbers a node from the counters that the visits before it left, so what carries a run is
what the counters hold of the nodes seen so far (`Counters.Counts`). On a page that is enumerated
afresh the headings get the numbers of their sections (`enumerate_numbers_headings`), the nodes of
any other numbered kind get 1, 2, 3 and so on (`enumerate_numbers_kinds`), and nothing else is
numbered. A number is shown as the word of 32 bits that counts up to it, which is the number itself
below 2 ^ 32.
-/

namespace CrossDoc

namespace Attributes

/-- The level at which a heading is numbered, where the numbers begin at level `start`. -/
def headingLevel? (start : Nat) (attributes : Attributes) : Option Nat :=
  let level := countedDepth (attributes.depth.getD 1)
  if attributes.is NodeType.heading = true ∧ attributes.enumerated ≠ some false ∧ start ≤ level then
    some level
  else none

def isCounted (kind : TargetKind) (attributes : Attributes) : Bool :=
  TargetKind.ofNode? attributes == some kind && attributes.enumerated != some false

variable {attributes : Attributes} {kind : TargetKind} {start level : Nat}

theorem headingLevel?_eq_some_iff : attributes.headingLevel? start = some level ↔
    attributes.is NodeType.heading = true ∧ attributes.enumerated ≠ some false ∧ start ≤ level ∧
      countedDepth (attributes.depth.getD 1) = level := by
  unfold headingLevel?
  simp only [Option.ite_none_right_eq_some, Option.some.injEq]
  constructor
  · rintro ⟨⟨hheading, hcounted, hstart⟩, rfl⟩
    exact ⟨hheading, hcounted, hstart, rfl⟩
  · rintro ⟨hheading, hcounted, hstart, rfl⟩
    exact ⟨⟨hheading, hcounted, hstart⟩, rfl⟩

theorem isCounted_iff : attributes.isCounted kind = true ↔
    TargetKind.ofNode? attributes = some kind ∧ attributes.enumerated ≠ some false := by
  simp [isCounted]

theorem headingLevel?_unnumbered (start : Nat) (attributes : Attributes) :
    attributes.unnumbered.headingLevel? start = attributes.headingLevel? start := rfl

theorem isCounted_unnumbered (kind : TargetKind) (attributes : Attributes) :
    attributes.unnumbered.isCounted kind = attributes.isCounted kind := rfl

end Attributes

theorem TargetKind.ofNode?_eq_heading_iff {attributes : Attributes} :
    ofNode? attributes = some heading ↔ attributes.is NodeType.heading = true := by
  unfold ofNode?
  split_ifs <;> simp_all

namespace Attributes

variable {attributes : Attributes} {kind : TargetKind} {start level : Nat}

theorem isCounted_of_headingLevel?
    (h : attributes.headingLevel? start = some level) (hne : kind ≠ .heading) :
    attributes.isCounted kind = false := by
  have hheading := TargetKind.ofNode?_eq_heading_iff.2 (headingLevel?_eq_some_iff.1 h).1
  simp [isCounted, hheading, hne.symm]

theorem headingLevel?_of_isCounted
    (h : attributes.isCounted kind = true) (hne : kind ≠ .heading) :
    attributes.headingLevel? start = none := by
  cases hlevel : attributes.headingLevel? start with
  | none => rfl
  | some level =>
      rw [isCounted_of_headingLevel? hlevel hne] at h
      exact absurd h (by simp)

theorem isCounted_of_ne {other : TargetKind} (h : attributes.isCounted kind = true)
    (hne : other ≠ kind) : attributes.isCounted other = false := by
  simp [isCounted, (isCounted_iff.1 h).1, hne.symm]

end Attributes

/-! ## Counters -/

/--
What counters hold after the nodes `seen`: of every other kind that is numbered, how many nodes of
it there are; and for each level, how many headings there are at it since the last shallower one.
-/
structure Counters.Counts (numbering : Numbering) (seen : List Attributes) (counters : Counters) :
    Prop where
  counts : ∀ kind, kind ≠ .heading → numbering.numbers kind = true →
    counters.counts kind = .ofNat (seen.countP (Attributes.isCounted kind))
  headings : numbering.headings = true →
    counters.headings = (List.range' 1 deepestHeading).map
      (counterSince
        (seen.filterMap (Attributes.headingLevel? (countedDepth numbering.headingStart))))

namespace Counters

variable {numbering : Numbering} {seen : List Attributes} {counters : Counters}
  {attributes : Attributes}

theorem counts_nil (numbering : Numbering) : ({} : Counters).Counts numbering [] where
  counts _ _ _ := rfl
  headings _ := rfl

theorem one_le_countedDepth (depth : UInt32) : 1 ≤ countedDepth depth := Nat.le_max_left _ _

theorem countedDepth_le (depth : UInt32) : countedDepth depth ≤ deepestHeading := by
  unfold countedDepth deepestHeading
  omega

theorem assign_cases (numbering : Numbering) (counters : Counters) (attributes : Attributes) :
    (∃ level, numbering.headings = true ∧
      attributes.headingLevel? (countedDepth numbering.headingStart) = some level ∧
      counters.assign numbering attributes =
        (some (dotted (headingNumbers (countedDepth numbering.headingStart) level
            (advance (level - 1) counters.headings))),
          { counters with headings := advance (level - 1) counters.headings })) ∨
    (∃ kind, kind ≠ .heading ∧ numbering.numbers kind = true ∧ attributes.isCounted kind = true ∧
      counters.assign numbering attributes =
        (some (toString (counters.counts kind + 1)), (counters.next kind).2)) ∨
    ((numbering.headings = true →
        attributes.headingLevel? (countedDepth numbering.headingStart) = none) ∧
      (∀ kind, kind ≠ .heading → numbering.numbers kind = true →
        attributes.isCounted kind = false) ∧
      counters.assign numbering attributes = (none, counters)) := by
  by_cases hoff : attributes.enumerated = some false
  · refine Or.inr (Or.inr ⟨fun _ => ?_, fun kind _ _ => ?_, by rw [assign, if_pos hoff]⟩)
    · simp [Attributes.headingLevel?, hoff]
    · simp [Attributes.isCounted, hoff]
  · have hkind : ∀ kind, attributes.isCounted kind = true ↔
        TargetKind.ofNode? attributes = some kind := by
      intro kind
      rw [Attributes.isCounted_iff]
      exact and_iff_left hoff
    have hlevel : attributes.is NodeType.heading = false →
        attributes.headingLevel? (countedDepth numbering.headingStart) = none := by
      intro hother
      simp [Attributes.headingLevel?, hother]
    rw [assign, if_neg hoff]
    split
    · rename_i hnone
      refine Or.inr (Or.inr ⟨fun _ => hlevel ?_, fun kind _ _ => ?_, rfl⟩)
      · rw [← Bool.not_eq_true, ← TargetKind.ofNode?_eq_heading_iff, hnone]
        simp
      · rw [← Bool.not_eq_true, hkind, hnone]
        simp
    · rename_i hheading
      have his := TargetKind.ofNode?_eq_heading_iff.1 hheading
      have hothers : ∀ kind, kind ≠ .heading → attributes.isCounted kind = false := by
        intro kind hne
        rw [← Bool.not_eq_true, hkind, hheading, Option.some.injEq]
        exact hne.symm
      unfold nextHeading?
      by_cases hnumbered : numbering.headings = true ∧
          countedDepth numbering.headingStart ≤ countedDepth (attributes.depth.getD 1)
      · refine Or.inl ⟨_, hnumbered.1,
          Attributes.headingLevel?_eq_some_iff.2 ⟨his, hoff, hnumbered.2, rfl⟩, ?_⟩
        rw [if_pos (by simpa using hnumbered)]
      · refine Or.inr (Or.inr ⟨fun hon => ?_, fun kind hne _ => hothers kind hne, ?_⟩)
        · have hshallow : ¬ countedDepth numbering.headingStart ≤
              countedDepth (attributes.depth.getD 1) := fun hdeep => hnumbered ⟨hon, hdeep⟩
          simp [Attributes.headingLevel?, hshallow]
        · rw [if_neg (by simpa using hnumbered)]
    · rename_i kind hne hsome
      have hother : attributes.is NodeType.heading = false := by
        rw [← Bool.not_eq_true, ← TargetKind.ofNode?_eq_heading_iff, hsome]
        simpa using hne
      by_cases hnumbers : numbering.numbers kind = true
      · rw [if_pos hnumbers]
        exact Or.inr (Or.inl ⟨kind, hne, hnumbers, (hkind kind).2 hsome, rfl⟩)
      · refine Or.inr (Or.inr ⟨fun _ => hlevel hother, fun other _ hon => ?_, ?_⟩)
        · rw [← Bool.not_eq_true, hkind, hsome, Option.some.injEq]
          rintro rfl
          exact hnumbers hon
        · rw [if_neg hnumbers]

theorem Counts.advance_headings (h : counters.Counts numbering seen)
    (hon : numbering.headings = true) {level : Nat}
    (hlevel : attributes.headingLevel? (countedDepth numbering.headingStart) = some level) :
    advance (level - 1) counters.headings = (List.range' 1 deepestHeading).map
      (counterSince ((seen ++ [attributes]).filterMap
        (Attributes.headingLevel? (countedDepth numbering.headingStart)))) := by
  obtain ⟨-, -, -, hdepth⟩ := Attributes.headingLevel?_eq_some_iff.1 hlevel
  have hone : 1 ≤ level := hdepth ▸ one_le_countedDepth _
  have hdeepest : level ≤ deepestHeading := hdepth ▸ countedDepth_le _
  have hplace : 1 + (level - 1) = level := by omega
  rw [h.headings hon, advance_counterSince 1 (by omega), hplace, List.filterMap_append]
  simp [hlevel]

/-- What counters hold passes from one node to the next. -/
theorem Counts.assign (h : counters.Counts numbering seen) (attributes : Attributes) :
    (counters.assign numbering attributes).2.Counts numbering (seen ++ [attributes]) := by
  obtain ⟨level, hon, hlevel, hassign⟩ | ⟨kind, hne, hnumbers, hcounted, hassign⟩ |
      ⟨hlevel, hcounted, hassign⟩ := assign_cases numbering counters attributes
  · rw [hassign]
    refine ⟨fun kind hkind hnumbers => ?_, fun _ => h.advance_headings hon hlevel⟩
    rw [List.countP_append, List.countP_singleton,
      Attributes.isCounted_of_headingLevel? hlevel hkind]
    exact h.counts kind hkind hnumbers
  · rw [hassign]
    refine ⟨fun other hother hon => ?_, fun hon => ?_⟩
    · rw [List.countP_append, List.countP_singleton]
      by_cases hsame : other = kind
      · subst hsame
        rw [if_pos hcounted, UInt32.ofNat_add, ← h.counts other hother hon]
        exact if_pos rfl
      · rw [if_neg (by simp [Attributes.isCounted_of_ne hcounted hsame]), Nat.add_zero,
          ← h.counts other hother hon]
        exact if_neg hsame
    · rw [List.filterMap_append]
      simp [next, Attributes.headingLevel?_of_isCounted hcounted hne, h.headings hon]
  · rw [hassign]
    refine ⟨fun kind hkind hnumbers => ?_, fun hon => ?_⟩
    · rw [List.countP_append, List.countP_singleton, hcounted kind hkind hnumbers]
      exact h.counts kind hkind hnumbers
    · rw [List.filterMap_append]
      simp [hlevel hon, h.headings hon]

variable {kind : TargetKind} {level : Nat}

theorem Counts.assign_of_headingLevel? (h : counters.Counts numbering seen)
    (hon : numbering.headings = true)
    (hlevel : attributes.headingLevel? (countedDepth numbering.headingStart) = some level) :
    (counters.assign numbering attributes).1 =
      some (dotted ((sectionNumber (countedDepth numbering.headingStart)
        ((seen ++ [attributes]).filterMap
          (Attributes.headingLevel? (countedDepth numbering.headingStart))) level).map
        UInt32.ofNat)) := by
  obtain ⟨-, -, -, hdepth⟩ := Attributes.headingLevel?_eq_some_iff.1 hlevel
  obtain ⟨other, -, hother, hassign⟩ | ⟨kind, hne, -, hcounted, -⟩ | ⟨hnone, -, -⟩ :=
    assign_cases numbering counters attributes
  · obtain rfl : level = other := Option.some.inj (hlevel.symm.trans hother)
    rw [hassign, h.advance_headings hon hlevel,
      headingNumbers_counterSince (one_le_countedDepth _) (hdepth ▸ countedDepth_le _)]
  · rw [Attributes.headingLevel?_of_isCounted hcounted hne] at hlevel
    exact absurd hlevel (by simp)
  · rw [hnone hon] at hlevel
    exact absurd hlevel (by simp)

theorem Counts.assign_of_isCounted (h : counters.Counts numbering seen) (hne : kind ≠ .heading)
    (hnumbers : numbering.numbers kind = true) (hcounted : attributes.isCounted kind = true) :
    (counters.assign numbering attributes).1 =
      some (toString (UInt32.ofNat (seen.countP (Attributes.isCounted kind) + 1))) := by
  obtain ⟨level, -, hlevel, -⟩ | ⟨other, -, -, hother, hassign⟩ | ⟨-, hnone, -⟩ :=
    assign_cases numbering counters attributes
  · rw [Attributes.isCounted_of_headingLevel? hlevel hne] at hcounted
    exact absurd hcounted (by simp)
  · obtain rfl : other = kind := by
      by_contra hdiffers
      rw [Attributes.isCounted_of_ne hcounted hdiffers] at hother
      exact absurd hother (by simp)
    rw [hassign, h.counts other hne hnumbers, UInt32.ofNat_add]
    rfl
  · rw [hnone kind hne hnumbers] at hcounted
    exact absurd hcounted (by simp)

theorem assign_eq_none (hheading : attributes.is NodeType.heading = false)
    (h : ∀ kind, numbering.numbers kind = true → attributes.isCounted kind = false) :
    (counters.assign numbering attributes).1 = none := by
  obtain ⟨level, -, hlevel, -⟩ | ⟨kind, -, hnumbers, hcounted, -⟩ | ⟨-, -, hassign⟩ :=
    assign_cases numbering counters attributes
  · rw [(Attributes.headingLevel?_eq_some_iff.1 hlevel).1] at hheading
    exact absurd hheading (by simp)
  · rw [h kind hnumbers] at hcounted
    exact absurd hcounted (by simp)
  · rw [hassign]

end Counters

/-! ## A run -/

namespace Enumeration

variable [Text.Slugger]

theorem enumerator_visit (state : Enumeration) (node : Node) :
    (state.visit node).1.enumerator =
      ((state.page.counters.assign state.page.numbering node.toAttributes).1 <|>
        node.enumerator) := by
  have hnumbered : (state.numbered node).enumerator =
      ((state.page.counters.assign state.page.numbering node.toAttributes).1 <|>
        node.enumerator) := rfl
  obtain ⟨own, label, hidentify⟩ := identify_eq (state.numbered node).toAttributes
  obtain ⟨-, hvisit⟩ | ⟨identifier, -, -, hvisit⟩ | ⟨identifier, -, -, hvisit⟩ :=
    state.visit_cases node
  · rw [hvisit]
    exact hnumbered
  · rw [hvisit, hidentify]
    exact hnumbered
  · rw [hvisit, hidentify]
    exact hnumbered

theorem counters_visit (state : Enumeration) (node : Node) :
    (state.visit node).2.page.counters =
      (state.page.counters.assign state.page.numbering node.toAttributes).2 := by
  obtain ⟨-, hvisit⟩ | ⟨identifier, -, -, hvisit⟩ | ⟨identifier, -, -, hvisit⟩ :=
    state.visit_cases node
  all_goals
    rw [hvisit]
    rfl

theorem counts_visitAll {state : Enumeration} {numbering : Numbering}
    (hnumbering : state.page.numbering = numbering) {seen : List Attributes}
    (h : state.page.counters.Counts numbering seen) (nodes : List Node) :
    (state.visitAll nodes).2.page.counters.Counts numbering
      (seen ++ nodes.map Node.toAttributes) := by
  induction nodes generalizing state seen with
  | nil => simpa [visitAll] using h
  | cons node rest ih =>
      obtain ⟨targets, counters, hpage⟩ := state.visit_page node
      have hnext := h.assign node.toAttributes
      rw [← hnumbering, ← counters_visit, hnumbering] at hnext
      have hrest := ih (by rw [hpage, ← hnumbering]) hnext
      simpa [visitAll] using hrest

theorem read_visit {α : Type} {f : Attributes → α}
    (hf : ∀ attributes, f attributes.unnumbered = f attributes) (state : Enumeration)
    (node : Node) : f (state.visit node).1 = f node.toAttributes := by
  rw [← hf, unnumbered_visit, hf]

theorem headingLevel?_visit (state : Enumeration) (node : Node) (start : Nat) :
    (state.visit node).1.headingLevel? start = node.headingLevel? start :=
  state.read_visit (Attributes.headingLevel?_unnumbered start) node

theorem isCounted_visit (state : Enumeration) (node : Node) (kind : TargetKind) :
    (state.visit node).1.isCounted kind = node.isCounted kind :=
  state.read_visit (Attributes.isCounted_unnumbered kind) node

theorem visitAll_concat (state : Enumeration) (nodes : List Node) (node : Node) :
    (state.visitAll (nodes ++ [node])).1 =
      (state.visitAll nodes).1 ++ [((state.visitAll nodes).2.visit node).1] := by
  rw [visitAll_append]
  rfl

section Fresh

variable {state : Enumeration} {numbering : Numbering}
  (hnumbering : state.page.numbering = numbering)
  (hfresh : state.page.counters.Counts numbering [])

include hnumbering hfresh

theorem exists_enumerator_visit (nodes : List Node) (node : Node) :
    ∃ counters : Counters, counters.Counts numbering (nodes.map Node.toAttributes) ∧
      ((state.visitAll nodes).2.visit node).1.enumerator =
        ((counters.assign numbering node.toAttributes).1 <|> node.enumerator) := by
  obtain ⟨targets, counters, hpage⟩ := state.visitAll_page nodes
  have hcounts := counts_visitAll hnumbering hfresh nodes
  refine ⟨_, hcounts, ?_⟩
  rw [enumerator_visit, hpage, hnumbering]

/-- In a run the headings get the numbers of their sections. -/
theorem headings_visitAll (hon : numbering.headings = true) {start : Nat}
    (hstart : countedDepth numbering.headingStart = start) (nodes : List Node) :
    ((state.visitAll nodes).1.filter (fun visited => (visited.headingLevel? start).isSome)).map
        (fun visited => visited.enumerator) =
      (sectionNumbers start (nodes.filterMap (fun node => node.headingLevel? start))).map
        (fun number => some (Counters.dotted (number.map UInt32.ofNat))) := by
  induction nodes using List.reverseRecOn with
  | nil => rfl
  | append_singleton nodes node ih =>
      obtain ⟨counters, hcounts, henumerator⟩ :=
        exists_enumerator_visit hnumbering hfresh nodes node
      rw [visitAll_concat, List.filter_append, List.map_append, ih, List.filterMap_append]
      cases hlevel : node.headingLevel? start with
      | none => simp [headingLevel?_visit, hlevel]
      | some level =>
          have hnumber := hcounts.assign_of_headingLevel? hon (hstart ▸ hlevel)
          rw [hnumber, hstart, List.filterMap_append, List.filterMap_map] at henumerator
          simp only [List.filter_cons, headingLevel?_visit, hlevel, Option.isSome_some, if_true,
            List.filter_nil, List.map_cons, List.map_nil, List.filterMap_cons, List.filterMap_nil]
          rw [sectionNumbers_append, List.map_append, henumerator]
          simp [hlevel]

/-- In a run the nodes of any other kind that is numbered get 1, 2, 3 and so on. -/
theorem kinds_visitAll {kind : TargetKind} (hne : kind ≠ .heading)
    (hnumbers : numbering.numbers kind = true) (nodes : List Node) :
    ((state.visitAll nodes).1.filter (Attributes.isCounted kind)).map
        (fun visited => visited.enumerator) =
      (List.range' 1 (nodes.countP (fun node => node.isCounted kind))).map
        (fun number => some (toString (UInt32.ofNat number))) := by
  induction nodes using List.reverseRecOn with
  | nil => rfl
  | append_singleton nodes node ih =>
      obtain ⟨counters, hcounts, henumerator⟩ :=
        exists_enumerator_visit hnumbering hfresh nodes node
      rw [visitAll_concat, List.filter_append, List.map_append, ih, List.countP_append,
        List.countP_singleton]
      cases hcounted : node.isCounted kind with
      | false => simp [isCounted_visit, hcounted]
      | true =>
          have hnumber := hcounts.assign_of_isCounted hne hnumbers hcounted
          rw [hnumber, List.countP_map] at henumerator
          rw [if_pos rfl, List.range'_concat, List.map_append]
          simp [isCounted_visit, hcounted, henumerator, Function.comp_def, Nat.add_comm]

end Fresh

theorem enumerator_visit_eq_self (state : Enumeration) {node : Node}
    (hheading : node.is NodeType.heading = false)
    (h : ∀ kind, state.page.numbering.numbers kind = true → node.isCounted kind = false) :
    (state.visit node).1.enumerator = node.enumerator := by
  rw [enumerator_visit, Counters.assign_eq_none hheading h]
  rfl

theorem others_visitAll {state : Enumeration} {numbering : Numbering}
    (hnumbering : state.page.numbering = numbering) (nodes : List Node) :
    List.Forall₂ (fun node (visited : Attributes) => node.is NodeType.heading = false →
      (∀ kind, numbering.numbers kind = true → node.isCounted kind = false) →
        visited.enumerator = node.enumerator) nodes (state.visitAll nodes).1 := by
  induction nodes generalizing state with
  | nil => exact List.Forall₂.nil
  | cons node rest ih =>
      obtain ⟨targets, counters, hpage⟩ := state.visit_page node
      have hnext : (state.visit node).2.page.numbering = numbering := by
        rw [hpage]
        exact hnumbering
      refine List.Forall₂.cons (fun hheading hothers => ?_) (ih hnext)
      exact state.enumerator_visit_eq_self hheading (hnumbering ▸ hothers)

end Enumeration

/-! ## A page -/

namespace Page

variable [Text.Slugger] (page : Page) (file : String) (numbering : Numbering)

theorem numbering_startTargets : (page.startTargets file numbering).numbering = numbering := by
  obtain ⟨-, h⟩ | ⟨identifier, -, h⟩ := page.startTargets_cases file numbering <;> rw [h]

theorem counts_startTargets : (page.startTargets file numbering).counters.Counts numbering [] := by
  obtain ⟨-, h⟩ | ⟨identifier, -, h⟩ := page.startTargets_cases file numbering
  all_goals
    rw [h]
    exact Counters.counts_nil numbering

end Page

theorem Enumeration.map_nodes_walk [Text.Slugger] {α : Type} {f : Attributes → α}
    (hf : ∀ attributes, f attributes.unnumbered = f attributes) (state : Enumeration)
    (tree : Node) : (state.walk tree).1.nodes.map (fun node => f node.toAttributes) =
      tree.nodes.map (fun node => f node.toAttributes) := by
  have hnodes := congrArg Node.nodes (state.walk_unnumbered tree)
  rw [Node.nodes_mapAttributes, Node.nodes_mapAttributes] at hnodes
  have hread := congrArg (List.map (fun node : Node => f node.toAttributes)) hnodes
  simpa only [List.map_map, Function.comp_def, Node.toAttributes_mapAttributes, hf] using hread

/--
On a page that is enumerated afresh, the headings that are numbered get, in document order, the
numbers of their sections, as words of 32 bits. These numbers grow, and no two of them have the same
text.
-/
theorem PageTargets.enumerate_numbers_headings [Text.Slugger] (page : Page) (file : String)
    (numbering : Numbering) (hon : numbering.headings = true) (tree : Node) :
    let start := countedDepth numbering.headingStart
    let enumerated := ((page.startTargets file numbering).enumerate tree).1
    let levels := tree.nodes.filterMap (fun node => node.headingLevel? start)
    let numbers := sectionNumbers start levels
    let shown := (enumerated.nodes.filter (fun node => (node.headingLevel? start).isSome)).map
      (fun node => node.enumerator)
    enumerated.nodes.map (fun node => node.headingLevel? start) =
      tree.nodes.map (fun node => node.headingLevel? start) ∧
    shown = numbers.map (fun number => some (Counters.dotted (number.map UInt32.ofNat))) ∧
    (levels.length < UInt32.size →
      shown = numbers.map (fun number => some (Counters.dotted number))) ∧
    numbers.Pairwise (· < ·) ∧
    (numbers.map Counters.dotted).Nodup := by
  intro start enumerated levels numbers shown
  let state : Enumeration := { page := page.startTargets file numbering }
  have hlevels : ∀ level ∈ levels, start ≤ level := by
    intro level hlevel
    obtain ⟨node, -, hnode⟩ := List.mem_filterMap.1 hlevel
    exact (Attributes.headingLevel?_eq_some_iff.1 hnode).2.2.1
  have hnumbering : state.page.numbering = numbering := page.numbering_startTargets file numbering
  have hrun := Enumeration.headings_visitAll hnumbering (page.counts_startTargets file numbering)
    hon rfl tree.nodes
  rw [Enumeration.visitAll_nodes, List.filter_map, List.map_map] at hrun
  have hshown : shown = numbers.map (fun number =>
      some (Counters.dotted (number.map UInt32.ofNat))) := hrun
  refine ⟨state.map_nodes_walk (Attributes.headingLevel?_unnumbered start) tree, hshown,
    fun hfew => hshown.trans (List.map_congr_left fun number hnumber => ?_),
    sectionNumbers_pairwise_lt hlevels, nodup_dotted_sectionNumbers hlevels⟩
  rw [dotted_map_ofNat_of_mem hfew hnumber]

def unevenOutline : Node :=
  .ofType NodeType.root
    [{ type := NodeType.heading, depth := some 2 },
     .ofType NodeType.block [{ type := NodeType.heading, depth := some 9 }],
     { type := NodeType.heading, depth := some 1, enumerated := some false },
     { type := NodeType.heading, depth := some 0 },
     { type := NodeType.heading, depth := some 3 }]

theorem unevenOutline_numbers :
    ({ headings := true } : Numbering).headings = true ∧
    ((((({ slug := "a", url := "/a" } : Page).startTargets "a.md" { headings := true }).enumerate
        unevenOutline).1.nodes.filter (fun node => (node.headingLevel? 1).isSome)).map
        (fun node => node.enumerator)) =
      [some "0.1", some "0.1.0.0.0.1", some "1", some "1.0.1"] := by
  obtain ⟨-, -, hnumbers, -⟩ := PageTargets.enumerate_numbers_headings
    { slug := "a", url := "/a" } "a.md" { headings := true } rfl unevenOutline
  exact ⟨rfl, (hnumbers (by decide +kernel)).trans (by decide +kernel)⟩

/--
On a page that is enumerated afresh, the nodes of any kind but headings that is numbered get 1, 2, 3
and so on in document order, as words of 32 bits. Every other node but a heading keeps the number it
had.
-/
theorem PageTargets.enumerate_numbers_kinds [Text.Slugger] (page : Page) (file : String)
    (numbering : Numbering) (tree : Node) :
    let enumerated := ((page.startTargets file numbering).enumerate tree).1
    (∀ kind ∈ [TargetKind.figure, .table, .code, .equation], numbering.numbers kind = true →
      let numbers := List.range' 1 (tree.nodes.countP (fun node => node.isCounted kind))
      let shown := (enumerated.nodes.filter (fun node => node.isCounted kind)).map
        (fun node => node.enumerator)
      enumerated.nodes.map (fun node => node.isCounted kind) =
        tree.nodes.map (fun node => node.isCounted kind) ∧
      shown = numbers.map (fun number => some (toString (UInt32.ofNat number))) ∧
      (numbers.length < UInt32.size → shown = numbers.map (fun number => some (toString number)))) ∧
    List.Forall₂ (fun (node after : Node) => node.is NodeType.heading = false →
      (∀ kind, numbering.numbers kind = true → node.isCounted kind = false) →
        after.enumerator = node.enumerator) tree.nodes enumerated.nodes := by
  intro enumerated
  let state : Enumeration := { page := page.startTargets file numbering }
  have hnumbering : state.page.numbering = numbering := page.numbering_startTargets file numbering
  constructor
  · intro kind hkind hnumbers numbers shown
    have hne : kind ≠ .heading := by
      rintro rfl
      simp at hkind
    have hrun := Enumeration.kinds_visitAll hnumbering (page.counts_startTargets file numbering)
      hne hnumbers tree.nodes
    rw [Enumeration.visitAll_nodes, List.filter_map, List.map_map] at hrun
    have hshown : shown = numbers.map (fun number => some (toString (UInt32.ofNat number))) := hrun
    refine ⟨state.map_nodes_walk (Attributes.isCounted_unnumbered kind) tree, hshown,
      fun hfew => hshown.trans (List.map_congr_left fun number hnumber => ?_)⟩
    rw [List.length_range'] at hfew
    have hword : number < UInt32.size := by
      have hbounds := List.mem_range'_1.1 hnumber
      exact (show number ≤ _ by omega).trans_lt hfew
    rw [Counters.toString_ofNat hword]
  · have hothers := Enumeration.others_visitAll hnumbering tree.nodes
    rw [Enumeration.visitAll_nodes] at hothers
    exact List.forall₂_map_right_iff.1 hothers

def nestedFigures : Node :=
  .ofType NodeType.root
    [{ type := NodeType.container, identifier := some "one", children :=
        [{ type := NodeType.container, kind := some "table" },
         { type := NodeType.container, identifier := some "two" }] },
     { type := NodeType.container, enumerated := some false, enumerator := some "9" },
     { type := NodeType.container, identifier := some "one" }]

theorem nestedFigures_numbers :
    TargetKind.figure ∈ [TargetKind.figure, .table, .code, .equation] ∧
    ({} : Numbering).numbers .figure = true ∧
    ((((({ slug := "a", url := "/a" } : Page).startTargets "a.md" {}).enumerate
        nestedFigures).1.nodes.filter (fun node => node.isCounted .figure)).map
        (fun node => node.enumerator)) = [some "1", some "2", some "3"] := by
  have hkind : TargetKind.figure ∈ [TargetKind.figure, .table, .code, .equation] := by decide
  obtain ⟨hkinds, -⟩ := PageTargets.enumerate_numbers_kinds
    { slug := "a", url := "/a" } "a.md" {} nestedFigures
  obtain ⟨-, -, hnumbers⟩ := hkinds .figure hkind rfl
  exact ⟨hkind, rfl, (hnumbers (by decide +kernel)).trans (by decide +kernel)⟩

end CrossDoc
