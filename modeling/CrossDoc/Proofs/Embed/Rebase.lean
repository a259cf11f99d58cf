import CrossDoc.Proofs.Embed.Remote
import CrossDoc.Proofs.Node.Path

/-!
# Content that is rebased

Content of another project may itself hold content of a third one. What leads out of the project by
itself (`Attributes.LeadsOut`) keeps its destination when the content is rebased, and all
cross-references and links of the content lead out from then on. But the source of copied content
is placed in the project of the page it was found on, whatever project it came from. So rebasing a
second time changes nothing just if there are no sources, or if both references lead into the same
project (`Node.Rebases.again_iff`).
-/

namespace CrossDoc

namespace Attributes

variable {reference attributes : Attributes}

/-- Where a reference leads does not depend on the project it stands in. -/
structure LeadsOut (attributes : Attributes) : Prop where
  crossReference :
    attributes.type = NodeType.crossReference → attributes.remoteBaseUrl.isSome = true
  link : attributes.type = NodeType.link → attributes.isInternal ≠ some true

theorem is_eq_true_iff {type : String} : attributes.is type = true ↔ attributes.type = type :=
  beq_iff_eq

/-! ## One node -/

theorem rebaseCrossReference_eq (reference attributes : Attributes) :
    ∃ url dataUrl isRemote remoteBaseUrl,
      reference.rebaseCrossReference attributes =
        { attributes with url, dataUrl, isRemote, remoteBaseUrl } ∧
      (attributes.type = NodeType.crossReference → reference.remoteBaseUrl.isSome = true →
        remoteBaseUrl.isSome = true) := by
  unfold rebaseCrossReference
  by_cases hlocal : attributes.is NodeType.crossReference && attributes.remoteBaseUrl.isNone
  · rw [if_pos hlocal]
    by_cases hremote : attributes.isRemote = some true
    · simp only [hremote, if_true]
      exact ⟨_, _, _, _, rfl, fun _ hbase => hbase⟩
    · simp only [hremote, if_false]
      exact ⟨_, _, _, _, rfl, fun _ hbase => hbase⟩
  · rw [if_neg hlocal]
    refine ⟨_, _, _, _, rfl, fun htype _ => ?_⟩
    simpa [is_eq_true_iff.2 htype, Option.isSome_iff_ne_none] using hlocal

theorem rebaseLink_eq (reference attributes : Attributes) :
    ∃ url dataUrl isInternal,
      reference.rebaseLink attributes = { attributes with url, dataUrl, isInternal } ∧
      (attributes.type = NodeType.link → isInternal ≠ some true) := by
  unfold rebaseLink
  by_cases hinternal : attributes.is NodeType.link && attributes.isInternal == some true
  · rw [if_pos hinternal]
    exact ⟨_, _, _, rfl, fun _ => by decide⟩
  · rw [if_neg hinternal]
    refine ⟨_, _, _, rfl, fun htype => ?_⟩
    simpa [is_eq_true_iff.2 htype] using hinternal

theorem rebase_eq (reference attributes : Attributes) :
    ∃ url dataUrl isRemote remoteBaseUrl isInternal,
      reference.rebase attributes =
        { attributes with
          url, dataUrl, isRemote, remoteBaseUrl, isInternal
          source := attributes.source.map (fun source =>
            { source with remoteBaseUrl := reference.remoteBaseUrl }) } ∧
      (attributes.type = NodeType.crossReference → reference.remoteBaseUrl.isSome = true →
        remoteBaseUrl.isSome = true) ∧
      (attributes.type = NodeType.link → isInternal ≠ some true) := by
  obtain ⟨url, dataUrl, isRemote, remoteBaseUrl, hreference, hsome⟩ :=
    rebaseCrossReference_eq reference attributes
  obtain ⟨linkUrl, linkDataUrl, isInternal, hlink, hleaves⟩ :=
    rebaseLink_eq reference (reference.rebaseCrossReference attributes)
  rw [hreference] at hlink hleaves
  refine ⟨linkUrl, linkDataUrl, isRemote, remoteBaseUrl, isInternal, ?_, hsome, hleaves⟩
  rw [rebase, hreference, hlink]
  rfl

theorem type_rebase (reference attributes : Attributes) :
    (reference.rebase attributes).type = attributes.type := by
  obtain ⟨url, dataUrl, isRemote, remoteBaseUrl, isInternal, hrebase, -⟩ :=
    rebase_eq reference attributes
  rw [hrebase]

theorem source_rebase (reference attributes : Attributes) :
    (reference.rebase attributes).source = attributes.source.map (fun source =>
      { source with remoteBaseUrl := reference.remoteBaseUrl }) := by
  obtain ⟨url, dataUrl, isRemote, remoteBaseUrl, isInternal, hrebase, -⟩ :=
    rebase_eq reference attributes
  rw [hrebase]

/-- Rebased on a project, every reference leads out. -/
theorem leadsOut_rebase (hbase : reference.remoteBaseUrl.isSome = true)
    (attributes : Attributes) : (reference.rebase attributes).LeadsOut := by
  obtain ⟨url, dataUrl, isRemote, remoteBaseUrl, isInternal, hrebase, hsome, hleaves⟩ :=
    rebase_eq reference attributes
  rw [hrebase]
  exact ⟨fun htype => hsome htype hbase, hleaves⟩

theorem LeadsOut.rebase_eq (h : attributes.LeadsOut) (reference : Attributes) :
    reference.rebase attributes = reference.rebaseSource attributes := by
  have hcrossReference : reference.rebaseCrossReference attributes = attributes := by
    refine if_neg (fun hlocal => ?_)
    obtain ⟨htype, hnone⟩ := Bool.and_eq_true_iff.1 hlocal
    have hsome := h.crossReference (is_eq_true_iff.1 htype)
    rw [Option.isNone_iff_eq_none.1 hnone] at hsome
    exact Bool.false_ne_true hsome
  have hlink : reference.rebaseLink attributes = attributes := by
    refine if_neg (fun hinternal => ?_)
    obtain ⟨htype, htrue⟩ := Bool.and_eq_true_iff.1 hinternal
    exact h.link (is_eq_true_iff.1 htype) (beq_iff_eq.1 htrue)
  rw [rebase, hcrossReference, hlink]

theorem rebase_rebase_eq_iff (hbase : reference.remoteBaseUrl.isSome = true)
    (second attributes : Attributes) :
    second.rebase (reference.rebase attributes) = reference.rebase attributes ↔
      attributes.source = none ∨ second.remoteBaseUrl = reference.remoteBaseUrl := by
  rw [(leadsOut_rebase hbase attributes).rebase_eq second]
  have hsource := source_rebase reference attributes
  generalize reference.rebase attributes = once at hsource ⊢
  have hsame : second.rebaseSource once = once ↔
      once.source.map (fun source => { source with remoteBaseUrl := second.remoteBaseUrl }) =
        once.source :=
    ⟨congrArg Attributes.source, fun h => by rw [rebaseSource, h]⟩
  rw [hsame, hsource]
  cases attributes.source with
  | none => simp
  | some source => simp

end Attributes

/-! ## All of a tree -/

namespace Node

variable {reference : Attributes} {content node copied : Node} {path : Path}

theorem at?_rebase (h : content.at? path = some node) (reference : Attributes) :
    (content.rebase reference).at? path = some (node.rebase reference) := by
  unfold rebase
  rw [at?_mapAttributes, h]
  rfl

theorem toAttributes_rebase (reference : Attributes) (content : Node) :
    (content.rebase reference).toAttributes = reference.rebase content.toAttributes :=
  toAttributes_mapAttributes _ content

theorem exists_of_mem_nodes_rebase (h : copied ∈ (content.rebase reference).nodes) :
    ∃ node ∈ content.nodes, copied = node.rebase reference := by
  unfold rebase at h
  rw [nodes_mapAttributes] at h
  obtain ⟨node, hnode, rfl⟩ := List.mem_map.1 h
  exact ⟨node, hnode, rfl⟩

theorem rebase_rebase_eq_iff (hbase : reference.remoteBaseUrl.isSome = true)
    (second : Attributes) (content : Node) :
    (content.rebase reference).rebase second = content.rebase reference ↔
      (∀ node ∈ content.nodes, node.source = none) ∨
        second.remoteBaseUrl = reference.remoteBaseUrl := by
  unfold rebase
  rw [mapAttributes_mapAttributes, mapAttributes_eq_mapAttributes_iff]
  simp only [Attributes.rebase_rebase_eq_iff hbase]
  by_cases hsame : second.remoteBaseUrl = reference.remoteBaseUrl
  · simp [hsame]
  · simp [hsame]

/-- What holds of content that was rebased on the project of `reference`. -/
structure Rebases (reference : Attributes) (content rebased : Node) : Prop where
  keeps_reference : ∀ path node, content.at? path = some node →
    (node.type = NodeType.crossReference ∧ node.remoteBaseUrl.isSome = true ∨
      node.type = NodeType.link ∧ node.isInternal ≠ some true) →
    ∃ copied, rebased.at? path = some copied ∧ copied.url = node.url ∧
      copied.dataUrl = node.dataUrl ∧ copied.remoteBaseUrl = node.remoteBaseUrl
  /-- A source that belongs to a project keeps its url, but is placed in the one of `reference`. -/
  keeps_source_iff : ∀ path node source, content.at? path = some node →
    node.source = some source → source.remoteBaseUrl.isSome = true →
    ∃ copied placed, rebased.at? path = some copied ∧ copied.source = some placed ∧
      placed.url = source.url ∧
      (placed.remoteBaseUrl = source.remoteBaseUrl ↔
        source.remoteBaseUrl = reference.remoteBaseUrl)
  leads_out : ∀ copied ∈ rebased.nodes,
    (copied.type = NodeType.link → copied.isInternal ≠ some true) ∧
    (copied.type = NodeType.crossReference → copied.remoteBaseUrl.isSome = true) ∧
    ∀ source, copied.source = some source → source.remoteBaseUrl.isSome = true
  again_iff : ∀ second : Attributes, rebased.rebase second = rebased ↔
    (∀ node ∈ content.nodes, node.source = none) ∨
      second.remoteBaseUrl = reference.remoteBaseUrl

theorem leadsOut_of_belongsElsewhere {attributes : Attributes}
    (h : attributes.type = NodeType.crossReference ∧ attributes.remoteBaseUrl.isSome = true ∨
      attributes.type = NodeType.link ∧ attributes.isInternal ≠ some true) :
    attributes.LeadsOut := by
  obtain ⟨htype, hbase⟩ | ⟨htype, hinternal⟩ := h
  · exact ⟨fun _ => hbase, fun hlink => absurd (htype.symm.trans hlink) (by decide)⟩
  · exact ⟨fun hreference => absurd (htype.symm.trans hreference) (by decide), fun _ => hinternal⟩

theorem rebases_rebase (hbase : reference.remoteBaseUrl.isSome = true) (content : Node) :
    Rebases reference content (content.rebase reference) where
  keeps_reference path node hnode helsewhere := by
    refine ⟨node.rebase reference, at?_rebase hnode reference, ?_⟩
    rw [toAttributes_rebase, (leadsOut_of_belongsElsewhere helsewhere).rebase_eq reference]
    exact ⟨rfl, rfl, rfl⟩
  keeps_source_iff path node source hnode hsource _ := by
    refine ⟨node.rebase reference, { source with remoteBaseUrl := reference.remoteBaseUrl },
      at?_rebase hnode reference, ?_, rfl, eq_comm⟩
    rw [toAttributes_rebase, Attributes.source_rebase, hsource]
    rfl
  leads_out copied hcopied := by
    obtain ⟨node, -, rfl⟩ := exists_of_mem_nodes_rebase hcopied
    rw [toAttributes_rebase]
    have hleads := Attributes.leadsOut_rebase hbase node.toAttributes
    refine ⟨hleads.link, hleads.crossReference, fun source hsource => ?_⟩
    rw [Attributes.source_rebase] at hsource
    obtain ⟨before, -, rfl⟩ := Option.map_eq_some_iff.1 hsource
    exact hbase
  again_iff second := rebase_rebase_eq_iff hbase second content

end Node

/-! ## Content of embeds -/

namespace Embed

/--
Rebasing content on a project keeps the destination of every reference in it that belongs to another
project, and leaves no reference and no source without a project. But of a source that belongs to
another project it keeps only the url, so rebasing once more on a different project changes every
source. The content of an embed from another project is rebased so.
-/
theorem rebasing_keeps_first_iff {first : Attributes}
    (hbase : first.remoteBaseUrl.isSome = true) (content : Node) :
    Node.Rebases first content (content.rebase first) ∧
    ∀ (source : RemoteSource) (scope : EmbedScope) (label : String) (cache : RemoteCache)
      (embedded : Embedded), ExternalLink.claims scope.projects label = true →
      (resolve source scope label cache).1.result = some embedded →
      ∃ reference dataUrl page nodes,
        ExternalLink.resolve scope.projects (Node.link label).toAttributes = .ok reference ∧
        reference.dataUrl = some dataUrl ∧ cache.pageAt source dataUrl = some page ∧
        taken? page reference.identifier = some nodes ∧
        Node.Rebases reference (Node.ofType NodeType.block nodes) embedded.target := by
  refine ⟨Node.rebases_rebase hbase content, ?_⟩
  intro source scope label cache embedded hclaims hresult
  rw [(readsPages_resolve source scope label).result, answer, if_pos hclaims] at hresult
  obtain ⟨reference, dataUrl, page, nodes, hreference, hdata, hpage, htaken, rfl⟩ :=
    exists_rebased_of_remoteAnswer hresult
  obtain ⟨project, entry, rfl⟩ := ExternalLink.resolve_cases hreference
  have hbase := ExternalLink.remoteBaseUrl_toEntry (Node.link label).toAttributes project entry
  exact ⟨_, dataUrl, page, nodes, hreference, hdata, hpage, htaken,
    Node.rebases_rebase (Option.isSome_of_eq_some hbase) _⟩

def borrowingPage : RemotePage where
  content := .ofType NodeType.root
    [.ofType "paragraph" [.text "Before."],
      { type := NodeType.container
        source := some
          { url := some "https://third.example.org/figure"
            remoteBaseUrl := some "https://third.example.org" } }]

def borrowingEntry : IndexEntry := { url := "/guide", data := "/guide.json", kind := "page" }

def borrowingProject : LoadedProject :=
  { key := "docs", url := "https://docs.example.org", entries := [borrowingEntry] }

def borrowingScope : EmbedScope :=
  { file := "a.md", index := {}, trees := {}, projects := [borrowingProject] }

def borrowingCache : RemoteCache :=
  { pages := MemoTable.settle {} "https://docs.example.org/guide.json" (some borrowingPage) }

/--
Rebased on one project and then on another, the figure changes its project again. In an embed of the
page its url leads to one project and its base to another.
-/
theorem borrowedFigure_loses_project :
    (∃ first second : Attributes,
      first.remoteBaseUrl.isSome = true ∧ second.remoteBaseUrl.isSome = true ∧
      (borrowingPage.content.rebase first).rebase second ≠ borrowingPage.content.rebase first) ∧
    ExternalLink.claims borrowingScope.projects "xref:docs/guide" = true ∧
    ∃ embedded figure source,
      (resolve (fun _ => none) borrowingScope "xref:docs/guide" borrowingCache).1.result =
        some embedded ∧
      embedded.target.at? [1] = some figure ∧ figure.source = some source ∧
      source.url = some "https://third.example.org/figure" ∧
      source.remoteBaseUrl ≠ some "https://third.example.org" := by
  have hlabel : ExternalLink.LeadsTo borrowingScope.projects "xref:docs/guide"
      { key := "docs", page := "/guide", identifier := none } borrowingProject borrowingEntry :=
    { parsed := by decide +kernel, loaded := by decide, listed := by decide }
  have hpage : borrowingCache.pageAt (fun _ => none) (borrowingProject.url ++ borrowingEntry.data) =
      some borrowingPage := by
    have hurl : borrowingProject.url ++ borrowingEntry.data =
        "https://docs.example.org/guide.json" := by decide
    unfold RemoteCache.pageAt borrowingCache
    rw [hurl, MemoTable.answer?_settle, if_pos rfl]
    rfl
  have hresult := result_resolve_of_leadsTo hlabel hpage
  rw [if_pos (by decide), taken?, Option.map_some] at hresult
  let first := entryReference "xref:docs/guide" borrowingProject borrowingEntry
  let second : Attributes :=
    { type := NodeType.link, remoteBaseUrl := some "https://other.example.org" }
  have hbase : first.remoteBaseUrl.isSome = true := by decide
  obtain ⟨hpages, hembeds⟩ := rebasing_keeps_first_iff hbase borrowingPage.content
  refine ⟨⟨first, second, hbase, rfl, fun hsame => ?_⟩, hlabel.claims, ?_⟩
  · obtain hnone | hproject := (hpages.again_iff second).1 hsame
    · have hfigure := hnone _ (Node.mem_nodes_iff_exists_at?.2 ⟨[1], rfl⟩)
      exact absurd hfigure (Option.some_ne_none _)
    · exact absurd hproject (by decide)
  · obtain ⟨reference, dataUrl, page, nodes, hreference, hdata, hread, htaken, hrebases⟩ :=
      hembeds _ _ _ _ _ hlabel.claims hresult
    obtain rfl : first = reference := Except.ok.inj (hlabel.resolve.symm.trans hreference)
    obtain rfl : borrowingProject.url ++ borrowingEntry.data = dataUrl := Option.some.inj hdata
    obtain rfl : borrowingPage = page := Option.some.inj (hpage.symm.trans hread)
    obtain rfl : borrowingPage.content.children = nodes := Option.some.inj htaken
    obtain ⟨figure, source, hfigure, hsource, hurl, hkeeps⟩ :=
      hrebases.keeps_source_iff [1] _ _ rfl rfl rfl
    exact ⟨_, figure, source, hresult, hfigure, hsource, hurl,
      fun hsame => absurd (hkeeps.1 hsame) (by decide)⟩

end Embed

end CrossDoc
