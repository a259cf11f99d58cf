import CrossDoc.CommandLine.Slug
import CrossDoc.Proofs.Link.Outcome

/-!
# Where a link leads after both passes over references

The pass over links turns a link with a fragment into a reference to a target of the page it names.
The pass over cross-references then looks the identifier of that target up again, this time on the
link's own page first and after that on every page. `link_keeps_destination_iff` says exactly when
the second look-up does no harm: when it leads back to the page that the link named, or to a target
that a reference cannot tell from the one it had.
-/

namespace CrossDoc

def Attributes.SameDestination (attributes others : Attributes) : Prop :=
  attributes.identifier = others.identifier ∧ attributes.htmlId = others.htmlId ∧
    attributes.url = others.url

namespace CrossReference

/--
Looked up from `file`, the identifier of a target of the page `owner` leads back to that page, or to
a target with the same identifier, the same anchor and the same url.
-/
def LeadsBack (index : ProjectIndex) (file owner : String) (target : Target) : Prop :=
  ∃ found other, lookUp? index file target.identifier = some (found, other) ∧
    (found = owner ∨
      other.identifier = target.identifier ∧ other.htmlId = target.htmlId ∧
        urlFrom file found other = urlFrom file owner target)

instance (index : ProjectIndex) (file owner : String) (target : Target) :
    Decidable (LeadsBack index file owner target) :=
  decidable_of_iff
    ((lookUp? index file target.identifier).any (fun entry =>
      decide (entry.1 = owner ∨
        entry.2.identifier = target.identifier ∧ entry.2.htmlId = target.htmlId ∧
          urlFrom file entry.1 entry.2 = urlFrom file owner target)) = true)
    (by simp [LeadsBack, Option.any_eq_true])

variable {index : ProjectIndex} {file : String}

variable (index file) in
theorem sameDestination_treat_of_wanted?_eq_none {attributes : Attributes}
    (h : wanted? attributes = none) :
    (treat index file attributes).SameDestination attributes := by
  rw [treat_of_wanted?_eq_none h]
  exact ⟨rfl, rfl, rfl⟩

theorem sameDestination_treat_iff {attributes : Attributes} {owner identifier : String}
    {target : Target} {page : IndexedPage} (hpage : index.get? owner = some page)
    (hkeyed : page.targets.IsKeyed) (htarget : page.targets.resolve? identifier = some target)
    (hwanted : wanted? attributes = some target.identifier)
    (hidentifier : attributes.identifier = some target.identifier)
    (hanchor : attributes.htmlId = some target.htmlId)
    (hurl : attributes.url = some (urlFrom file owner target)) :
    (treat index file attributes).SameDestination attributes ↔
      LeadsBack index file owner target := by
  have hself := PageTargets.resolve?_identifier hkeyed htarget
  obtain ⟨⟨found, other⟩, hfound⟩ := exists_lookUp? file hpage hself
  have htreat := treat_of_lookUp? hwanted hfound
  have hagree : (treat index file attributes).SameDestination attributes ↔
      other.identifier = target.identifier ∧ other.htmlId = target.htmlId ∧
        urlFrom file found other = urlFrom file owner target := by
    rw [htreat]
    unfold Attributes.SameDestination
    rw [hidentifier, hanchor, hurl]
    simp only [resolved, urlFrom, Option.some.injEq]
  rw [hagree]
  constructor
  · intro h
    exact ⟨found, other, hfound, Or.inr h⟩
  · rintro ⟨found', other', hfound', h⟩
    obtain ⟨rfl, rfl⟩ := Prod.mk.inj (Option.some.inj (hfound'.symm.trans hfound))
    rcases h with rfl | h
    · obtain ⟨page', hpage', hother⟩ := exists_of_lookUp? hfound
      obtain rfl := Option.some.inj (hpage.symm.trans hpage')
      obtain rfl := Option.some.inj (hself.symm.trans hother)
      exact ⟨rfl, rfl, rfl⟩
    · exact h

end CrossReference

namespace InternalLink

variable {index : ProjectIndex} {file : String} {link turned : Attributes}

theorem target?_withUrlSource {uri : String} (h : link.writtenUrl = some uri) :
    target? index file { link with urlSource := some uri } = target? index file link := by
  have hwritten : ({ link with urlSource := some uri } : Attributes).writtenUrl = some uri := rfl
  unfold target?
  rw [hwritten, h]

theorem sameDestination_iff (hkeyed : ∀ file page, index.get? file = some page →
      page.targets.IsKeyed)
    (hlink : link.is NodeType.link = true) (h : resolve index file link = .ok turned)
    (protocol : Option String) :
    (CrossReference.treat index file { turned with protocol }).SameDestination
        { turned with protocol } ↔
      (link.isRemote ≠ some true →
        ∀ owner target, target? index file link = some (owner, target) →
          CrossReference.LeadsBack index file owner target) := by
  rcases resolve_cases h with ⟨hnone, url, rfl⟩ | ⟨owner, target, hsome, rfl⟩
  · have hwanted : CrossReference.wanted? { toPage link url with protocol } = none :=
      CrossReference.wanted?_eq_none_of_type_ne (Attributes.type_ne_of_is_link hlink)
    have hkept := CrossReference.sameDestination_treat_of_wanted?_eq_none index file
      hwanted
    simp [hkept, hnone]
  · obtain ⟨page, identifier, hpage, htarget⟩ := exists_page_of_target? hsome
    by_cases hremote : link.isRemote = some true
    · have hwanted : CrossReference.wanted?
          { toTarget link target (CrossReference.urlFrom file owner target) with protocol } =
            none :=
        CrossReference.wanted?_eq_none_of_isRemote hremote
      have hkept := CrossReference.sameDestination_treat_of_wanted?_eq_none index file
        hwanted
      simp [hkept, hremote]
    · have hwanted : CrossReference.wanted?
          { toTarget link target (CrossReference.urlFrom file owner target) with protocol } =
            some target.identifier := by
        simp [CrossReference.wanted?, toTarget, Attributes.is, hremote]
      rw [CrossReference.sameDestination_treat_iff hpage (hkeyed owner page hpage) htarget hwanted
        rfl rfl rfl]
      constructor
      · intro hback _ owner' target' hsome'
        obtain ⟨rfl, rfl⟩ := Prod.mk.inj (Option.some.inj (hsome.symm.trans hsome'))
        exact hback
      · intro hall
        exact hall hremote owner target hsome

end InternalLink

/--
A link that the first pass resolved keeps its destination through the second just if it names no
target of this project, is marked as remote, or names a target to which its identifier leads back.
-/
theorem SourceDocument.link_keeps_destination_iff [Text.Slugger] (numbering : Numbering)
    (references : List ProjectReference) (documents : List SourceDocument)
    (document : SourceDocument) (path : Path) (link : Node)
    (hat : (document.enumerate numbering).content.at? path = some link)
    (hlink : link.is NodeType.link = true)
    (hresolved : ((document.linkRules numbering references documents).offer
      link.toAttributes).outcome = .resolved) :
    let index := indexOf numbering documents
    let given := ((document.linkRules numbering references documents).offer link.toAttributes).link
    (∃ node, (document.linked numbering references documents).content.at? path = some node ∧
        node.toAttributes.SameDestination given) ↔
      (given.protocol = some "file" → link.isRemote ≠ some true →
        ∀ owner target, InternalLink.target? index document.path link.toAttributes =
            some (owner, target) →
          CrossReference.LeadsBack index document.path owner target) := by
  intro index given
  obtain ⟨changed, hchanged, hattributes⟩ :=
    document.at?_linked numbering references documents hat
  have hgiven : changed.toAttributes = CrossReference.treat index document.path given := by
    rw [hattributes, treat, LinkRules.treat, if_pos hlink]
  have hkeeps : (∃ node, (document.linked numbering references documents).content.at? path =
        some node ∧ node.toAttributes.SameDestination given) ↔
      (CrossReference.treat index document.path given).SameDestination given := by
    rw [hchanged, ← hgiven]
    simp
  rw [hkeeps]
  obtain ⟨uri, turned, hwritten, hrule⟩ := WorkingDocument.offer_cases hresolved
  have hoffered : ({ link.toAttributes with urlSource := some uri } : Attributes).is
    NodeType.link = true := hlink
  rcases hrule with ⟨hturned, hoffer⟩ | ⟨hturned, hoffer⟩
  · have hgiven' : given = { turned with protocol := some ExternalLink.protocol } := hoffer
    obtain ⟨project, entry, rfl⟩ := ExternalLink.resolve_cases hturned
    have hwanted : CrossReference.wanted? given = none :=
      hgiven' ▸ ExternalLink.wanted?_toEntry hoffered project entry
    have hprotocol : given.protocol ≠ some "file" := by
      rw [hgiven']
      simp [ExternalLink.protocol]
    have hkept := CrossReference.sameDestination_treat_of_wanted?_eq_none index
      document.path hwanted
    simp [hkept, hprotocol]
  · have hgiven' : given = { turned with protocol := some "file" } := hoffer
    rw [hgiven', InternalLink.sameDestination_iff (fun _ _ => isKeyed_of_get?_indexOf) hoffered
      hturned]
    simp only [InternalLink.target?_withUrlSource hwritten, forall_const]
    rfl

def Node.linkToTwin : Node :=
  { type := NodeType.link, url := some "b.md#intro", children := [.text "see"] }

def SourceDocument.linkingTwin : SourceDocument where
  path := "a.md"
  page := { slug := "a", url := "/a" }
  content := .ofType NodeType.root
    [{ type := NodeType.heading, identifier := some "intro" }, .linkToTwin]

def SourceDocument.linkedTwin : SourceDocument where
  path := "b.md"
  page := { slug := "b", url := "/b" }
  content := .ofType NodeType.root [{ type := NodeType.heading, identifier := some "intro" }]

/-- The link is resolved, and then the second pass leads it back to its own page. -/
theorem SourceDocument.linkingTwin_loses_destination :
    let documents := [linkingTwin, linkedTwin]
    let offer := (linkingTwin.linkRules {} [] documents).offer Node.linkToTwin.toAttributes
    (linkingTwin.enumerate {}).content.at? [1] = some .linkToTwin ∧ offer.outcome = .resolved ∧
      ¬ ∃ node, (linkingTwin.linked {} [] documents).content.at? [1] = some node ∧
        node.toAttributes.SameDestination offer.link := by
  intro documents offer
  have hat : (linkingTwin.enumerate {}).content.at? [1] = some .linkToTwin := rfl
  have hresolved : ((linkingTwin.linkRules {} [] documents).offer
      Node.linkToTwin.toAttributes).outcome = .resolved := by decide +kernel
  have htarget : (InternalLink.target? (indexOf {} documents) "a.md"
      Node.linkToTwin.toAttributes).isSome = true := by decide +kernel
  refine ⟨hat, hresolved, fun hkept => ?_⟩
  have hkeeps := (link_keeps_destination_iff {} [] documents linkingTwin [1] .linkToTwin hat
    (by decide) hresolved).1 hkept
  have hback := hkeeps (by decide +kernel) (by decide) _ _ (Option.some_get htarget).symm
  exact absurd hback (by decide +kernel)

end CrossDoc
