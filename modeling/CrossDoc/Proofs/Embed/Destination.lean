import CrossDoc.Proofs.CrossReference.Url
import CrossDoc.Proofs.Embed.Fill
import CrossDoc.Proofs.Embed.Answers
import CrossDoc.Proofs.Project.Stages
import Mathlib.Data.List.Forall2

/-!
# Where copied references lead

What an embed is filled with stands on another page than before. A url that starts with `#` would
lead to a place on that page, so it is spelled out (`Attributes.url_anchorTo`); then every copied
link and cross-reference leads where it led from its own page, and no copy of another page has such
a url (`resolveLocal_keeps_destinations`).
-/

namespace CrossDoc

open CrossReference

namespace Attributes

def isReference (attributes : Attributes) : Bool :=
  attributes.is NodeType.crossReference || attributes.is NodeType.link

/-- A copy has all that the node has it was copied from, but perhaps its identity and its url. -/
def IsCopyOf (copy original : Attributes) : Prop :=
  copy.withoutIdentity = { original.withoutIdentity with url := copy.url }

/--
How a copy on the page at `pageUrl` stands to the node it was copied from, on the page at
`originUrl`.
-/
structure KeepsDestination (pageUrl originUrl : String) (copy original : Attributes) : Prop where
  isCopy : copy.IsCopyOf original
  destination : copy.isReference = true →
    copy.url.map (absolute pageUrl) = original.url.map (absolute originUrl)
  spelledOut : copy.isReference = true → ∀ url ∈ copy.url, ¬ isAnchor url = true
  others : copy.isReference = false → copy.url = original.url

theorem url_anonymous (attributes : Attributes) : attributes.anonymous.url = attributes.url := by
  unfold anonymous
  split
  · rfl
  · rfl

theorem withoutIdentity_anonymous (attributes : Attributes) :
    attributes.anonymous.withoutIdentity = attributes.withoutIdentity := by
  unfold anonymous
  split
  · rfl
  · rfl

theorem isReference_anonymous (attributes : Attributes) :
    attributes.anonymous.isReference = attributes.isReference := by
  unfold isReference is
  rw [type_anonymous]

theorem anchorTo_eq (originUrl : String) (attributes : Attributes) :
    attributes.anchorTo originUrl =
      { attributes with url := (attributes.anchorTo originUrl).url } := by
  unfold anchorTo
  split
  · rfl
  · rfl

theorem isReference_anchorTo (originUrl : String) (attributes : Attributes) :
    (attributes.anchorTo originUrl).isReference = attributes.isReference := by
  rw [anchorTo_eq]
  rfl

theorem url_anchorTo (originUrl : String) (attributes : Attributes) :
    (attributes.anchorTo originUrl).url =
      if attributes.isReference then attributes.url.map (absolute originUrl)
      else attributes.url := by
  unfold anchorTo isReference
  split
  · rfl
  · rfl

end Attributes

/-! ## Urls that are spelled out -/

theorem CrossReference.isAnchor_append {pageUrl : String} (h : pageUrl ≠ "") (url : String) :
    isAnchor (pageUrl ++ url) = isAnchor pageUrl := by
  unfold isAnchor
  rw [String.toList_append]
  cases hchars : pageUrl.toList with
  | nil => exact absurd (String.toList_eq_nil_iff.1 hchars) h
  | cons first rest => rfl

variable {originUrl : String}

theorem CrossReference.not_isAnchor_absolute (hempty : originUrl ≠ "")
    (hanchor : ¬ isAnchor originUrl = true) (url : String) :
    ¬ isAnchor (absolute originUrl url) = true := by
  by_cases hurl : isAnchor url = true
  · rw [absolute_of_isAnchor hurl, isAnchor_append hempty]
    exact hanchor
  · rw [absolute_of_not_isAnchor hurl]
    exact hurl

theorem Attributes.keepsDestination_anchorTo (hempty : originUrl ≠ "")
    (hanchor : ¬ isAnchor originUrl = true) (pageUrl : String) (original : Attributes) :
    KeepsDestination pageUrl originUrl (original.anchorTo originUrl).anonymous original := by
  have hcopy : (original.anchorTo originUrl).anonymous.IsCopyOf original := by
    unfold IsCopyOf
    rw [withoutIdentity_anonymous, url_anonymous, anchorTo_eq]
    rfl
  refine { isCopy := hcopy, destination := ?_, spelledOut := ?_, others := ?_ }
  · rw [isReference_anonymous, isReference_anchorTo, url_anonymous, url_anchorTo]
    intro hreference
    rw [if_pos hreference, Option.map_map]
    exact congrArg (original.url.map ·) (funext fun url =>
      absolute_of_not_isAnchor (not_isAnchor_absolute hempty hanchor url) pageUrl)
  · rw [isReference_anonymous, isReference_anchorTo, url_anonymous, url_anchorTo]
    intro hreference url hurl
    rw [if_pos hreference] at hurl
    obtain ⟨written, -, rfl⟩ := Option.map_eq_some_iff.1 hurl
    exact not_isAnchor_absolute hempty hanchor written
  · rw [isReference_anonymous, isReference_anchorTo, url_anonymous, url_anchorTo]
    intro hreference
    rw [hreference]
    rfl

theorem Attributes.isCopyOf_anonymous (original : Attributes) :
    original.anonymous.IsCopyOf original := by
  unfold IsCopyOf
  rw [withoutIdentity_anonymous, url_anonymous]
  rfl

/-! ## Copied content -/

namespace Embed

open Node

theorem carried_contentOf_sublist (page : PageTargets) (identifier : String) (tree : Node) :
    (carried (contentOf page identifier tree)).Sublist (carried [tree]) := by
  unfold contentOf
  split
  · exact carried_children_sublist tree
  · exact carried_selectTarget_sublist tree identifier

theorem sublistForall₂_children_fillWith {R : Attributes → Attributes → Prop}
    {f : Attributes → Attributes} {nodes : List Node} {tree : Node} {embedded : Embedded}
    (hnodes : (carried nodes).Sublist (carried [tree]))
    (htarget : carried embedded.target.unwrapped = (carried nodes).map f)
    (hR : ∀ attributes, R (f attributes).anonymous attributes) (embed : Node) :
    List.SublistForall₂ R (carried (fillWith embedded embed).children) (carried [tree]) := by
  have hcopies : (carried (fillWith embedded embed).children).Sublist
      ((carried nodes).map (fun attributes => (f attributes).anonymous)) := by
    have hfill := carried_children_fill_sublist embedded.target embed
    rw [htarget, List.map_map] at hfill
    exact hfill
  obtain ⟨originals, horiginals, hmap⟩ := List.sublist_map_iff.1 hcopies
  refine List.sublistForall₂_iff.2 ⟨originals, ?_, horiginals.trans hnodes⟩
  rw [hmap, List.forall₂_map_left_iff, List.forall₂_same]
  exact fun attributes _ => hR attributes

theorem carried_copied_of_own (scope : EmbedScope) {owner : String} (h : owner = scope.file)
    (label : String) (page : IndexedPage) (nodes : List Node) :
    carried (copied scope label owner page nodes).target.unwrapped = carried nodes := by
  rw [target_copied, if_pos h]
  rfl

theorem carried_copied_of_ne (scope : EmbedScope) {owner : String} (h : owner ≠ scope.file)
    (label : String) (page : IndexedPage) (nodes : List Node) :
    carried (copied scope label owner page nodes).target.unwrapped =
      (carried nodes).map (Attributes.anchorTo page.targets.url) := by
  have htype (attributes : Attributes) :
      (attributes.anchorTo page.targets.url).type = attributes.type := by
    rw [Attributes.anchorTo_eq]
  rw [target_copied, if_neg h]
  exact carried_unwrapped_mapAttributes htype (Node.ofType NodeType.block nodes)

/--
What an embed copies from a page of the project is a part of that page in its order, every node but
for its identity and its url as it was. From another page every link and cross-reference leads where
it led from there, and no longer by a bare anchor; from the page itself every url is as it was.
-/
theorem resolveLocal_keeps_destinations [Text.Slugger] {numbering : Numbering}
    {references : List ProjectReference} {documents : List SourceDocument}
    (hurls : ∀ document ∈ documents,
      document.page.url ≠ "" ∧ ¬ isAnchor document.page.url = true)
    {document : SourceDocument} {label : String} {embedded : Embedded}
    (h : (resolveLocal (document.scope numbering references documents) label).result =
      some embedded) (embed : Node) :
    ∃ owner ∈ documents,
      embedded.localFile = (if owner.path = document.path then none else some owner.path) ∧
      List.SublistForall₂ (fun copy original =>
          if owner.path = document.path then
            copy.IsCopyOf original ∧ copy.url = original.url
          else copy.KeepsDestination document.page.url owner.page.url original)
        (carried (fillWith embedded embed).children)
        (carried [(owner.linked numbering references documents).content]) := by
  obtain ⟨identifier, path, page, tree, -, hfound, htree, -, rfl⟩ := exists_owner_of_result h
  obtain ⟨owner, hmem, rfl, rfl, hbyPath⟩ :=
    SourceDocument.exists_document_byPath (ProjectIndex.get?_of_owner? hfound)
  rw [SourceDocument.trees_scope] at htree
  obtain rfl : (owner.linked numbering references documents).content = tree :=
    Option.some.inj ((hbyPath (fun document =>
      (document.linked numbering references documents).content)).symm.trans htree)
  have hcontent := carried_contentOf_sublist (owner.enumerate numbering).targets identifier
    (owner.linked numbering references documents).content
  refine ⟨owner, hmem, localFile_copied _, ?_⟩
  by_cases hown : owner.path = document.path
  · simp only [if_pos hown]
    have hcopied := carried_copied_of_own (document.scope numbering references documents) hown
      label
    exact sublistForall₂_children_fillWith (f := id) hcontent
      ((hcopied _ _).trans (List.map_id _).symm)
      (fun attributes => ⟨attributes.isCopyOf_anonymous, attributes.url_anonymous⟩) embed
  · simp only [if_neg hown]
    have hcopied := carried_copied_of_ne (document.scope numbering references documents) hown
      label
    obtain ⟨hempty, hanchor⟩ := hurls owner hmem
    refine sublistForall₂_children_fillWith hcontent (hcopied _ _) (fun attributes => ?_) embed
    simp only [SourceDocument.url_enumerate]
    exact attributes.keepsDestination_anchorTo hempty hanchor document.page.url

def quoted : SourceDocument where
  path := "o.md"
  page := { slug := "o", url := "/o" }
  content := .ofType NodeType.root
    [{ type := NodeType.heading, identifier := some "sec" },
      { type := NodeType.crossReference, identifier := some "sec" }]

def quoting : SourceDocument where
  path := "d.md"
  page := { slug := "d", url := "/d" }
  content := .ofType NodeType.root
    [{ type := NodeType.embed, source := some { label := some "o.md#sec" } }]

/-- The copied reference leads to the section on the page it was copied from. -/
theorem quoting_keeps_destination : ∃ embedded,
    (resolveLocal (quoting.scope {} [] [quoted, quoting]) "o.md#sec").result = some embedded ∧
    let copies := carried (fillWith embedded (Node.ofType NodeType.embed [])).children
    copies.map (·.url) = [none, some "/o#sec"] ∧
    List.SublistForall₂ (Attributes.KeepsDestination "/d" "/o") copies
      (carried [(quoted.linked {} [] [quoted, quoting]).content]) := by
  obtain ⟨embedded, hresult⟩ : ∃ embedded,
      (resolveLocal (quoting.scope {} [] [quoted, quoting]) "o.md#sec").result = some embedded :=
    Option.isSome_iff_exists.1 (by decide +kernel)
  have hcopied : (resolveLocal (quoting.scope {} [] [quoted, quoting]) "o.md#sec").result.map
      (fun embedded => (embedded.localFile, (carried
        (fillWith embedded (Node.ofType NodeType.embed [])).children).map (·.url))) =
      some (some "o.md", [none, some "/o#sec"]) := by
    decide +kernel
  rw [hresult] at hcopied
  obtain ⟨hfile, hcopies⟩ := Prod.mk.inj (Option.some.inj hcopied)
  obtain ⟨owner, hmem, howner, hkeeps⟩ :=
    resolveLocal_keeps_destinations (by decide +kernel) hresult (Node.ofType NodeType.embed [])
  rcases List.mem_pair.1 hmem with rfl | rfl
  · exact ⟨embedded, hresult, hcopies, hkeeps⟩
  · rw [hfile, if_pos rfl] at howner
    exact absurd howner (by simp)

end Embed

end CrossDoc
