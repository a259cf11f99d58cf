import CrossDoc.Proofs.Link.Account

/-!
# Links once more

A link that the rules resolved has a new url, but it still tells the one it was written with, and
that is the one it is offered under. So a link that stays a link goes to the same rule and comes
back as it was (`offer_again`), and a second pass over a page changes nothing (`apply_apply`).
-/

namespace CrossDoc.LinkRules

variable {rules : LinkRules} {link : Attributes}

theorem withUrlSource_self {uri : String} (h : link.urlSource = some uri) :
    { link with urlSource := some uri } = link := by
  rw [← h]

/-- A link that was offered and is a link still: offered again, it ends alike and stays as it is. -/
theorem offer_again (hrules : ∀ rule ∈ rules, rule.Reliable)
    (hlink : (rules.offer link).link.is NodeType.link = true) :
    (rules.offer (rules.offer link).link).outcome = (rules.offer link).outcome ∧
      (rules.offer (rules.offer link).link).link = (rules.offer link).link := by
  obtain hnone | ⟨uri, rule, hwritten, howner, ⟨diagnostic, herror⟩ | ⟨turned, hok⟩⟩ :=
    rules.owner_cases link
  · have hoffer := offer_of_unclaimed hnone
    have hlink' : (rules.offer link).link = link := congrArg LinkOffer.link hoffer
    rw [hlink']
    exact ⟨rfl, hlink'⟩
  · let offered : Attributes := { link with urlSource := some uri }
    have hlink' : (rules.offer link).link = offered :=
      congrArg LinkOffer.link (offer_of_error hwritten howner herror)
    have hoffered : offered.writtenUrl = some uri := rfl
    have hagain : rules.offer offered = rules.offer link :=
      (offer_of_error hoffered howner herror).trans (offer_of_error hwritten howner herror).symm
    rw [hlink', hagain]
    exact ⟨rfl, hlink'⟩
  · let given : Attributes := { turned with protocol := some rule.protocol }
    have hlink' : (rules.offer link).link = given :=
      congrArg LinkOffer.link (offer_of_ok hwritten howner hok)
    have hrule := hrules rule (List.mem_of_find?_eq_some howner)
    have hsource : given.urlSource = some uri := hrule.urlSource_of_ok hok
    have hgiven : given.writtenUrl = some uri := by
      unfold Attributes.writtenUrl
      rw [hsource]
      rfl
    rw [hlink'] at hlink ⊢
    have hagain : (rule.resolve { given with urlSource := some uri }).result = .ok given := by
      rw [withUrlSource_self hsource]
      exact hrule.resolve_again hok hlink rfl hgiven
    rw [offer_of_ok hwritten howner hok, offer_of_ok hgiven howner hagain]
    exact ⟨rfl, rfl⟩

theorem treat_treat (hrules : ∀ rule ∈ rules, rule.Reliable) (attributes : Attributes) :
    rules.treat (rules.treat attributes) = rules.treat attributes := by
  unfold treat
  by_cases hlink : attributes.is NodeType.link = true
  · rw [if_pos hlink]
    by_cases hstays : (rules.offer attributes).link.is NodeType.link = true
    · rw [if_pos hstays]
      exact (offer_again hrules hstays).2
    · rw [if_neg hstays]
  · rw [if_neg hlink, if_neg hlink]

/--
A second pass over the links of a tree changes nothing. What was a link and is one still ends as it
did the first time, with the attributes that it has by then.
-/
theorem apply_apply (hrules : ∀ rule ∈ rules, rule.OfProject) (tree : Node) :
    rules.apply (rules.apply tree) = rules.apply tree ∧
    ∀ path link, tree.at? path = some link → link.is NodeType.link = true →
      ∃ after, (rules.apply tree).at? path = some after ∧
        (after.is NodeType.link = true →
          (rules.offer after.toAttributes).outcome = (rules.offer link.toAttributes).outcome ∧
          (rules.offer after.toAttributes).link = after.toAttributes) := by
  have hreliable : ∀ rule ∈ rules, rule.Reliable := fun rule hmem => (hrules rule hmem).reliable
  constructor
  · have htreat : (fun attributes => rules.treat (rules.treat attributes)) = rules.treat :=
      funext (treat_treat hreliable)
    unfold apply
    rw [Node.mapAttributes_mapAttributes, htreat]
  · intro path link hlink hislink
    refine ⟨link.mapAttributes rules.treat, ?_, ?_⟩
    · rw [apply, Node.at?_mapAttributes, hlink]
      rfl
    · rw [Node.toAttributes_mapAttributes, treat, if_pos hislink]
      exact offer_again hreliable

/-- The link to the page itself has the page's url after the first pass, and keeps it. -/
theorem mixedLinks_again :
    (∀ rule ∈ headedRules, rule.OfProject) ∧
      headedRules.apply (headedRules.apply mixedLinks) = headedRules.apply mixedLinks ∧
      ∃ after, (headedRules.apply mixedLinks).at? [1] = some after ∧ after.url = some "/a" ∧
        (headedRules.offer after.toAttributes).outcome = .resolved ∧
        (headedRules.offer after.toAttributes).link.url = some "/a" := by
  obtain ⟨hagain, hplaces⟩ := apply_apply ofProject_headedRules mixedLinks
  obtain ⟨link, hlink⟩ : ∃ link, mixedLinks.at? [1] = some link := ⟨_, rfl⟩
  obtain ⟨after, hafter, hstays⟩ := hplaces [1] link hlink (by
    obtain rfl := Option.some.inj hlink
    rfl)
  have hread : ((headedRules.apply mixedLinks).at? [1]).map (fun node => (node.type, node.url)) =
      some ("link", some "/a") := by decide +kernel
  rw [hafter] at hread
  obtain ⟨htype, hurl⟩ := Prod.mk.inj (Option.some.inj hread)
  obtain ⟨houtcome, hkept⟩ := hstays (beq_iff_eq.2 htype)
  refine ⟨ofProject_headedRules, hagain, after, hafter, hurl, ?_, ?_⟩
  · obtain rfl := Option.some.inj hlink
    rw [houtcome]
    decide +kernel
  · rw [hkept]
    exact hurl

end CrossDoc.LinkRules
