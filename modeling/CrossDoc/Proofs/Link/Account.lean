import CrossDoc.CommandLine.Slug
import CrossDoc.Proofs.Link.Promises
import CrossDoc.Proofs.Node.Path
import CrossDoc.Proofs.Node.Visit

/-!
# Every link is accounted for

The pass over the links of a page, told as it goes: it visits node after node, offers each link to
the rules, counts the outcome and reports what was found (`LinkRules.visit`). What comes of it is
told link by link (`accounts_for_links`), because an offer depends on the link alone: each link has
one of three outcomes, and what an outcome leaves behind is the same for all rules that keep their
promises (`Settles`).
-/

namespace CrossDoc

namespace LinkSummary

def count (summary : LinkSummary) : LinkOutcome → LinkSummary
  | .resolved => { summary with resolved := summary.resolved + 1 }
  | .failed => { summary with failed := summary.failed + 1 }
  | .unhandled => { summary with unhandled := summary.unhandled + 1 }

def add (summary other : LinkSummary) : LinkSummary where
  resolved := summary.resolved + other.resolved
  failed := summary.failed + other.failed
  unhandled := summary.unhandled + other.unhandled

def ofOffers (offers : List LinkOffer) : LinkSummary where
  resolved := offers.countP (fun offer => offer.outcome == .resolved)
  failed := offers.countP (fun offer => offer.outcome == .failed)
  unhandled := offers.countP (fun offer => offer.outcome == .unhandled)

theorem add_ofOffers_cons (summary : LinkSummary) (offer : LinkOffer) (offers : List LinkOffer) :
    summary.add (ofOffers (offer :: offers)) =
      (summary.count offer.outcome).add (ofOffers offers) := by
  unfold add ofOffers count
  cases houtcome : offer.outcome with
  | resolved => simp [houtcome]; omega
  | failed => simp [houtcome]; omega
  | unhandled => simp [houtcome]; omega

theorem total_ofOffers (offers : List LinkOffer) :
    (ofOffers offers).resolved + (ofOffers offers).failed + (ofOffers offers).unhandled =
      offers.length := by
  unfold ofOffers
  induction offers with
  | nil => rfl
  | cons offer rest ih =>
      simp only [List.countP_cons, List.length_cons] at ih ⊢
      cases offer.outcome with
      | resolved => simp; omega
      | failed => simp; omega
      | unhandled => simp; omega

end LinkSummary

/-- How far a pass over links has come: what it has counted, and the report so far. -/
structure LinkPass where
  summary : LinkSummary
  report : Report

namespace LinkPass

def note (pass : LinkPass) (offer : LinkOffer) : LinkPass where
  summary := pass.summary.count offer.outcome
  report := pass.report.add offer.found

theorem foldl_note (offers : List LinkOffer) (pass : LinkPass) :
    offers.foldl note pass =
      { summary := pass.summary.add (.ofOffers offers)
        report := pass.report.add (offers.flatMap (fun offer => offer.found)) } := by
  induction offers generalizing pass with
  | nil => simp [LinkSummary.add, LinkSummary.ofOffers, Report.add]
  | cons offer rest ih =>
      rw [List.foldl_cons, ih, LinkSummary.add_ofOffers_cons]
      simp [note, Report.add]

end LinkPass

namespace LinkRules

variable {rules : LinkRules}

def visit (rules : LinkRules) (node : Node) (pass : LinkPass) : Node × LinkPass :=
  if node.is NodeType.link then
    (⟨(rules.offer node.toAttributes).link, node.children⟩,
      pass.note (rules.offer node.toAttributes))
  else (node, pass)

/-- What comes of the links of a tree, in document order. -/
def offers (rules : LinkRules) (tree : Node) : List LinkOffer :=
  (links tree).map (fun node => rules.offer node.toAttributes)

theorem summary_eq (rules : LinkRules) (tree : Node) :
    rules.summary tree = .ofOffers (rules.offers tree) := by
  unfold summary count offers LinkSummary.ofOffers
  simp only [List.countP_map]
  rfl

theorem findings_eq (rules : LinkRules) (tree : Node) :
    rules.findings tree = (rules.offers tree).flatMap (fun offer => offer.found) := by
  unfold findings offers
  rw [List.flatMap_map]

theorem visit_eq (rules : LinkRules) (node : Node) (pass : LinkPass) :
    rules.visit node pass = (⟨rules.treat node.toAttributes, node.children⟩,
      if node.is NodeType.link then pass.note (rules.offer node.toAttributes) else pass) := by
  unfold visit treat
  split
  · rfl
  · cases node
    rfl

/-- A pass over a tree changes it, counts and reports as is told link by link. -/
theorem walks_visit (rules : LinkRules) (tree : Node) (pass : LinkPass) :
    Node.Walks rules.visit [tree] pass [rules.apply tree]
      { summary := pass.summary.add (rules.summary tree)
        report := pass.report.add (rules.findings tree) } := by
  have hwalk := Node.walks_mapAttributes rules.visit_eq tree pass
  have hfinal : tree.nodes.foldl (fun pass node =>
      if node.is NodeType.link then pass.note (rules.offer node.toAttributes) else pass) pass =
        (rules.offers tree).foldl LinkPass.note pass := by
    unfold offers links Node.selectAll
    rw [List.foldl_map, List.foldl_filter]
  rw [hfinal, LinkPass.foldl_note, ← summary_eq, ← findings_eq] at hwalk
  exact hwalk

/-- What an offer of a link leaves behind, by its outcome. -/
inductive Settles (rules : LinkRules) (link : Attributes) : LinkOffer → Prop
  | unhandled
      (hclaims : ∀ uri, link.writtenUrl = some uri → ∀ rule ∈ rules, rule.claims uri = false) :
      Settles rules link { outcome := .unhandled, link, found := [] }
  | failed {uri : String} {rule : LinkRule} {found : List Diagnostic}
      (hwritten : link.writtenUrl = some uri) (howner : rules.owner? uri = some rule)
      (hfound : Diagnostic.errorCount found = 1) :
      Settles rules link
        { outcome := .failed, link := { link with urlSource := some uri }, found }
  | resolved {uri : String} {rule : LinkRule} {turned : Attributes} {found : List Diagnostic}
      (hwritten : link.writtenUrl = some uri) (howner : rules.owner? uri = some rule)
      (hsource : turned.urlSource = some uri) (hprotocol : turned.protocol = some rule.protocol)
      (hfound : Diagnostic.errorCount found = 0) :
      Settles rules link { outcome := .resolved, link := turned, found }

theorem settles_offer (hrules : ∀ rule ∈ rules, rule.Reliable) (link : Attributes) :
    rules.Settles link (rules.offer link) := by
  obtain hnone | ⟨uri, rule, hwritten, howner, hresult⟩ := rules.owner_cases link
  · rw [offer_of_unclaimed hnone]
    refine .unhandled (fun uri hwritten rule hmem => ?_)
    have hunowned := List.find?_eq_none.1 (hnone uri hwritten) rule hmem
    simpa using hunowned
  · have hrule := hrules rule (List.mem_of_find?_eq_some howner)
    have hwarnings := hrule.errorCount_warnings { link with urlSource := some uri }
    obtain ⟨diagnostic, herror⟩ | ⟨turned, hok⟩ := hresult
    · rw [offer_of_error hwritten howner herror]
      refine .failed hwritten howner ?_
      rw [Diagnostic.errorCount_append, hwarnings,
        Diagnostic.errorCount_singleton (hrule.severity_of_error herror)]
    · rw [offer_of_ok hwritten howner hok]
      exact .resolved hwritten howner (hrule.urlSource_of_ok hok) rfl hwarnings

theorem Settles.errorCount {link : Attributes} {offer : LinkOffer}
    (h : rules.Settles link offer) :
    Diagnostic.errorCount offer.found = if offer.outcome = .failed then 1 else 0 := by
  cases h with
  | unhandled => rfl
  | failed _ _ hfound => exact hfound
  | resolved _ _ _ _ hfound => exact hfound

theorem errorCount_findings (hrules : ∀ rule ∈ rules, rule.Reliable) (tree : Node) :
    Diagnostic.errorCount (rules.findings tree) = (rules.summary tree).failed := by
  rw [summary_eq, findings_eq]
  unfold offers LinkSummary.ofOffers
  induction links tree with
  | nil => rfl
  | cons link rest ih =>
      simp only [List.map_cons, List.flatMap_cons, Diagnostic.errorCount_append,
        List.countP_cons] at ih ⊢
      rw [ih, (settles_offer hrules link.toAttributes).errorCount]
      simp [Nat.add_comm]

/--
The pass over the links of a tree, node by node, whatever was counted and reported before. Every
link has one outcome and is left as that outcome says, by itself and whatever stands around it. No
other node changes, and all nodes keep their children. Just as many errors are reported as links
failed.
-/
theorem accounts_for_links (hrules : ∀ rule ∈ rules, rule.OfProject) (tree : Node) :
    (∀ pass result final, Node.Walks rules.visit [tree] pass result final ↔
      result = [rules.apply tree] ∧
        final =
          { summary := pass.summary.add (rules.summary tree)
            report := pass.report.add (rules.findings tree) }) ∧
    (rules.summary tree).resolved + (rules.summary tree).failed + (rules.summary tree).unhandled =
      (links tree).length ∧
    Diagnostic.errorCount (rules.findings tree) = (rules.summary tree).failed ∧
    ∀ path node, tree.at? path = some node → ∃ after, (rules.apply tree).at? path = some after ∧
      after.children.length = node.children.length ∧
      if node.is NodeType.link then
        after.toAttributes = (rules.offer node.toAttributes).link ∧
          rules.Settles node.toAttributes (rules.offer node.toAttributes)
      else after.toAttributes = node.toAttributes := by
  have hreliable : ∀ rule ∈ rules, rule.Reliable := fun rule hmem => (hrules rule hmem).reliable
  refine ⟨fun pass result final => ?_, ?_, errorCount_findings hreliable tree, ?_⟩
  · exact (rules.walks_visit tree pass).iff
  · rw [summary_eq, LinkSummary.total_ofOffers, offers, List.length_map]
  · intro path node hnode
    refine ⟨node.mapAttributes rules.treat, ?_, ?_, ?_⟩
    · rw [apply, Node.at?_mapAttributes, hnode]
      rfl
    · rw [Node.children_mapAttributes, List.length_map]
    · rw [Node.toAttributes_mapAttributes, treat]
      by_cases hlink : node.is NodeType.link = true
      · rw [if_pos hlink, if_pos hlink]
        exact ⟨rfl, settles_offer hreliable node.toAttributes⟩
      · rw [if_neg hlink, if_neg hlink]

/-! ## A page with one link of each outcome -/

def headedRules : LinkRules :=
  [ExternalLink.rule (ExternalLink.projects
      [{ key := "docs", url := "https://docs.example.org", kind := .myst, index := some {} }]),
    InternalLink.rule (SourceDocument.indexOf {}
      [{ path := "a.md"
         page := { slug := "a", url := "/a" }
         content := .ofType NodeType.root
           [{ type := NodeType.heading, identifier := some "intro" }] }]) "a.md"]

theorem ofProject_headedRules : ∀ rule ∈ headedRules, rule.OfProject := by
  unfold headedRules
  simp only [List.forall_mem_cons, List.not_mem_nil, false_implies, implies_true, and_true]
  exact ⟨.external _, .internal _ _⟩

/--
A link into the other project with a link to the heading in it, a link to the page itself, and a
link that leads elsewhere.
-/
def mixedLinks : Node := .ofType NodeType.root
  [{ type := NodeType.link, url := some "myst:docs/gone", children := [.link "#intro"] },
   { type := NodeType.link, url := some "/a.md" }, .link "https://example.org"]

theorem mixedLinks_accounted :
    (∀ rule ∈ headedRules, rule.OfProject) ∧ headedRules.summary mixedLinks = ⟨2, 1, 1⟩ ∧
      (links mixedLinks).length = 4 ∧ (headedRules.findings mixedLinks).length = 2 ∧
      Diagnostic.errorCount (headedRules.findings mixedLinks) = 1 ∧
      ∃ after, (headedRules.apply mixedLinks).at? [0] = some after ∧ after.children.length = 1 ∧
        after.urlSource = some "myst:docs/gone" := by
  obtain ⟨-, htotal, herrors, hplaces⟩ := accounts_for_links ofProject_headedRules mixedLinks
  have hsummary : headedRules.summary mixedLinks = ⟨2, 1, 1⟩ := by decide +kernel
  obtain ⟨node, hnode⟩ : ∃ node, mixedLinks.at? [0] = some node := ⟨_, rfl⟩
  obtain ⟨after, hafter, hchildren, hsettled⟩ := hplaces [0] node hnode
  obtain rfl := Option.some.inj hnode
  refine ⟨ofProject_headedRules, hsummary, ?_, by decide +kernel, ?_, after, hafter, hchildren, ?_⟩
  · rw [← htotal, hsummary]
    rfl
  · rw [herrors, hsummary]
  · rw [if_pos (by decide)] at hsettled
    rw [hsettled.1]
    decide +kernel

end LinkRules

end CrossDoc
