import CrossDoc.CommandLine.Slug
import CrossDoc.CrossReference
import CrossDoc.Proofs.Target.Selected
import CrossDoc.Proofs.Text.Pieces

/-!
# What references to a target show

A reference from the project shows what the page knows of a target: its number or else its title. A
reference from elsewhere shows what it finds in the copied node: its number or else the text of all
that is in it. Both show one text where there is a number, and otherwise just if the node has no
text beside that of its title (`Target.Describes.shownText_eq_linkText_iff`).
-/

namespace CrossDoc

def Text.trimmed (text : String) : String := String.ofList (trim text.toList)

open Text

@[simp] theorem Text.trimmed_trimmed (text : String) : trimmed (trimmed text) = trimmed text := by
  simp [trimmed]

theorem Text.trimmed_eq_self_iff {text : String} :
    trimmed text = text ↔ trim text.toList = text.toList := by
  unfold trimmed
  rw [← String.toList_inj, String.toList_ofList]

/-! ## Numbers -/

namespace TargetKind

variable {attributes : Attributes}

/-- The kinds whose number is shown after a word and a blank. -/
def IsWorded (kind : TargetKind) : Prop :=
  kind = heading ∨ kind = figure ∨ kind = table ∨ kind = code

theorem IsWorded.exists_numbered? {kind : TargetKind} (h : kind.IsWorded) (number : String) :
    ∃ text first middle, kind.numbered? number = some text ∧ isBlank first = false ∧
      text.toList = first :: (middle ++ ' ' :: number.toList) := by
  rcases h with rfl | rfl | rfl | rfl
  · exact ⟨_, 'S', "ection".toList, rfl, by decide +kernel, by simp⟩
  · exact ⟨_, 'F', "igure".toList, rfl, by decide +kernel, by simp⟩
  · exact ⟨_, 'T', "able".toList, rfl, by decide +kernel, by simp⟩
  · exact ⟨_, 'P', "rogram".toList, rfl, by decide +kernel, by simp⟩

theorem exists_isWorded
    (h : attributes.is NodeType.heading = true ∨ attributes.is NodeType.container = true) :
    ∃ kind, ofNode? attributes = some kind ∧ kind.IsWorded := by
  unfold ofNode?
  rcases h with hheading | hcontainer
  · exact ⟨heading, by rw [if_pos hheading], Or.inl rfl⟩
  · have htype : attributes.type = NodeType.container := by
      simpa [Attributes.is] using hcontainer
    have hheading : attributes.is NodeType.heading = false := by
      rw [Attributes.is, htype]
      decide
    have hmath : attributes.is NodeType.math = false := by
      rw [Attributes.is, htype]
      decide
    simp only [hheading, hmath, hcontainer, Bool.false_eq_true, if_false, if_true]
    split
    · exact ⟨table, rfl, Or.inr (Or.inr (Or.inl rfl))⟩
    · split
      · exact ⟨code, rfl, Or.inr (Or.inr (Or.inr rfl))⟩
      · exact ⟨figure, rfl, Or.inr (Or.inl rfl)⟩

end TargetKind

/-! ## What is found in a copied node -/

namespace Node

variable {node : Node}

/-- The text that a reference to a node copied from elsewhere shows. -/
def shownText (node : Node) : String := trimmed (plainTextOf (node.referenceText?.getD []))

def captionText (node : Node) : String :=
  ((node.children.find? (fun child => child.is NodeType.caption)).map plainText).getD ""

@[simp] theorem plainTextOf_text (text : String) : plainTextOf [.text text] = text := by
  simp [plainTextOf, plainText, Node.text]

theorem referenceText?_of_enumerator {kind : TargetKind} {number text : String}
    (hkind : TargetKind.ofNode? node.toAttributes = some kind)
    (hnumber : node.enumerator = some number) (htext : kind.numbered? number = some text) :
    node.referenceText? = some [.text text] := by
  unfold referenceText?
  simp [hkind, hnumber, htext]

theorem shownText_of_enumerator_eq_none (h : node.enumerator = none) :
    node.shownText = trimmed (if node.is NodeType.heading && !node.children.isEmpty then
      plainTextOf node.children else node.plainText) := by
  unfold shownText referenceText?
  have hnumbered : (do
      let kind ← TargetKind.ofNode? node.toAttributes
      kind.numbered? (← node.enumerator)) = (none : Option String) := by
    rw [h]
    cases TargetKind.ofNode? node.toAttributes with
    | none => rfl
    | some kind => rfl
  simp only [hnumbered]
  split
  · rfl
  · cases htext : trim node.plainText.toList with
    | nil =>
        rw [trimmed, trimmed, htext]
        rfl
    | cons first rest =>
        have hshown : String.ofList (first :: rest) = trimmed node.plainText := by
          rw [trimmed, htext]
        simp only [Option.getD_some, plainTextOf_text]
        rw [hshown, trimmed_trimmed]

end Node

/-! ## What the page knows -/

open Enumeration in
theorem Enumeration.title?_getD (node : Node) :
    (title? node).getD "" = trimmed (if node.is NodeType.heading then node.plainText
      else if node.is NodeType.container then node.captionText else "") := by
  unfold title? trimmed
  cases node.is NodeType.heading with
  | true =>
      simp only [if_true, Option.map_some, Option.getD_some]
      cases trim node.plainText.toList with
      | nil => rfl
      | cons first rest => rfl
  | false =>
      cases node.is NodeType.container with
      | false => rfl
      | true =>
          unfold Node.captionText
          cases node.children.find? (fun child => child.is NodeType.caption) with
          | none => rfl
          | some caption =>
              simp only [Bool.false_eq_true, if_false, if_true, Option.map_some, Option.getD_some]
              cases trim caption.plainText.toList with
              | nil => rfl
              | cons first rest => rfl

namespace Target.Describes

variable {target : Target} {url : String} {node : Node}

theorem linkText?_of_enumerator {kind : TargetKind} {number text : String}
    (h : target.Describes url node) (hkind : TargetKind.ofNode? node.toAttributes = some kind)
    (hnumber : node.enumerator = some number) (htext : kind.numbered? number = some text) :
    target.linkText? = some text := by
  unfold linkText?
  rw [h.enumerator, hnumber, h.kind, hkind]
  simp [htext]

theorem linkText?_of_enumerator_eq_none (h : target.Describes url node)
    (hnumber : node.enumerator = none) : target.linkText? = Enumeration.title? node := by
  unfold linkText?
  rw [h.enumerator, hnumber, h.title]
  rfl

end Target.Describes

/-! ## Where they agree -/

/--
Whether references to a heading or a container show one text: its number does not end with a blank;
or it has no number, and is a heading without a text beside that of its children, or a container
without a text beside that of its first caption, but for blanks at the ends.
-/
def Node.ShowsOneText (node : Node) : Prop :=
  match node.enumerator with
  | some number => ∃ last, number.toList.getLast? = some last ∧ isBlank last = false
  | none =>
    if node.is NodeType.heading then
      node.children = [] ∨ trimmed (plainTextOf node.children) = trimmed node.plainText
    else trimmed node.plainText = trimmed node.captionText

theorem Target.Describes.shownText_eq_linkText_iff {target : Target} {url : String} {node : Node}
    (h : target.Describes url node)
    (hkind : node.is NodeType.heading = true ∨ node.is NodeType.container = true) :
    node.shownText = target.linkText?.getD "" ↔ node.ShowsOneText := by
  unfold Node.ShowsOneText
  cases hnumber : node.enumerator with
  | some number =>
      obtain ⟨kind, hsome, hworded⟩ := TargetKind.exists_isWorded hkind
      obtain ⟨text, first, middle, htext, hfirst, hspelled⟩ := hworded.exists_numbered? number
      rw [Node.shownText, Node.referenceText?_of_enumerator hsome hnumber htext,
        h.linkText?_of_enumerator hsome hnumber htext, Option.getD_some, Option.getD_some,
        Node.plainTextOf_text, trimmed_eq_self_iff, hspelled]
      exact trim_word_append_eq_self_iff hfirst (by decide +kernel) middle number.toList
  | none =>
      rw [Node.shownText_of_enumerator_eq_none hnumber,
        h.linkText?_of_enumerator_eq_none hnumber, Enumeration.title?_getD]
      cases hheading : node.is NodeType.heading with
      | true =>
          cases hchildren : node.children with
          | nil => simp
          | cons first rest => simp
      | false =>
          have hcontainer : node.is NodeType.container = true := by simpa [hheading] using hkind
          simp [hcontainer]

/--
On a page that is enumerated afresh, a heading or a container that was registered is numbered alike
by every reference that shows its number. References from elsewhere and from the project show one
text just if the number does not end with a blank, or there is none and the node has no text beside
that of its title.
-/
theorem PageTargets.enumerate_shows_one_text_iff [Text.Slugger] (page : Page) (file : String)
    (numbering : Numbering) (tree : Node) {identifier : String} {node : Node}
    (hother : page.frontmatter.label.bind Label.identifier? ≠ some identifier)
    (hnode : ((page.startTargets file numbering).enumerate tree).1.nodes.find?
      (fun node => node.targetIdentifier? == some identifier) = some node)
    (hkind : node.is NodeType.heading = true ∨ node.is NodeType.container = true) :
    ∃ target, ((page.startTargets file numbering).enumerate tree).2.page.targets.get? identifier =
        some target ∧ target.Describes page.url node ∧
      (∀ number, node.enumerator = some number → ∃ kind text,
        TargetKind.ofNode? node.toAttributes = some kind ∧ kind.numbered? number = some text ∧
        node.referenceText? = some [.text text] ∧ target.linkText? = some text) ∧
      (node.shownText = target.linkText?.getD "" ↔ node.ShowsOneText) := by
  obtain ⟨target, htarget, hdescribes⟩ := Enumeration.exists_describes_of_find?
    (page.get?_startTargets_of_ne file numbering hother) hnode
  refine ⟨target, htarget, ?_, fun number hnumber => ?_,
    hdescribes.shownText_eq_linkText_iff hkind⟩
  · exact page.url_startTargets file numbering ▸ hdescribes
  · obtain ⟨kind, hsome, hworded⟩ := TargetKind.exists_isWorded hkind
    obtain ⟨text, -, -, htext, -⟩ := hworded.exists_numbered? number
    exact ⟨kind, text, hsome, htext, Node.referenceText?_of_enumerator hsome hnumber htext,
      hdescribes.linkText?_of_enumerator hsome hnumber htext⟩

def unnumberedFigure : Node :=
  .ofType NodeType.root
    [{ type := NodeType.container, identifier := some "fig", enumerated := some false
       children := [.text "A picture. ", .ofType NodeType.caption [.text "The caption."]] }]

theorem unnumberedFigure_shows_two_texts :
    labelledPage.frontmatter.label.bind Label.identifier? ≠ some "fig" ∧
    ∃ figure target,
      ((labelledPage.startTargets "a.md" {}).enumerate unnumberedFigure).1.nodes.find?
        (fun node => node.targetIdentifier? == some "fig") = some figure ∧
      figure.is NodeType.container = true ∧
      ((labelledPage.startTargets "a.md" {}).enumerate unnumberedFigure).2.page.targets.get?
        "fig" = some target ∧
      figure.shownText = "A picture. The caption." ∧ target.linkText? = some "The caption." ∧
      ¬ figure.ShowsOneText := by
  have hother : labelledPage.frontmatter.label.bind Label.identifier? ≠ some "fig" := by
    decide +kernel
  obtain ⟨figure, hfigure, hread⟩ := Option.map_eq_some_iff.1 (show
    (((labelledPage.startTargets "a.md" {}).enumerate unnumberedFigure).1.nodes.find?
      (fun node => node.targetIdentifier? == some "fig")).map
        (fun node => (node.is NodeType.container, node.shownText)) =
      some (true, "A picture. The caption.") by decide +kernel)
  obtain ⟨hcontainer, hshown⟩ := Prod.mk.inj hread
  obtain ⟨target, htarget, -, -, hagree⟩ := PageTargets.enumerate_shows_one_text_iff
    labelledPage "a.md" {} unnumberedFigure hother hfigure (Or.inr hcontainer)
  have hknown : (((labelledPage.startTargets "a.md" {}).enumerate
      unnumberedFigure).2.page.targets.get? "fig").bind Target.linkText? =
      some "The caption." := by decide +kernel
  rw [htarget, Option.bind_some] at hknown
  refine ⟨hother, figure, target, hfigure, hcontainer, htarget, hshown, hknown, ?_⟩
  rw [← hagree, hshown, hknown]
  decide

end CrossDoc
