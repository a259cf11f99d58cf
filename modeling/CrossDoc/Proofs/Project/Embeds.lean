import CrossDoc.CommandLine.Slug
import CrossDoc.Proofs.Embed.Fate
import CrossDoc.Proofs.Embed.Origin
import CrossDoc.Proofs.Project.Stages

/-!
# The embeds of a resolved project

An embed that is left on a resolved page was asked for in this run, and filled or reported; or it
stands in one that could not be filled; or it came with content that was copied in this run, into an
embed or as the text of a reference (`resolveProject_accounts_for_embeds`). Pages are copied as they
are before any embed is filled. So where a page embeds a page that embeds a third, the inner embed
comes along and stays as it is, and nothing is reported (`relayed_leaves_embed`).
-/

namespace CrossDoc

open Embed

namespace SourceDocument

variable [Text.Slugger] (numbering : Numbering) (references : List ProjectReference)
  (documents : List SourceDocument) (answers : RemoteCache.PageAnswers)

def filledWith (document : SourceDocument) : Node :=
  fillAll (document.linked numbering references documents).content
    (answered (document.scope numbering references documents)
      (document.linked numbering references documents).content answers)

theorem content_finished (document : SourceDocument) :
    (document.finished numbering references documents answers).1.content =
      (RemoteReference.outcome
        (document.filledWith numbering references documents answers).liftEmbeds answers).tree := by
  let scope := document.scope numbering references documents
  let books : Books :=
    { tree := (document.linked numbering references documents).content, dependencies := []
      graph := {} }
  have htree := tree_outcome scope books answers
  exact congrArg (fun tree => (RemoteReference.outcome tree answers).tree) htree

theorem found_subset_finished (document : SourceDocument) :
    (answered (document.scope numbering references documents)
      (document.linked numbering references documents).content answers).flatMap (·.2.found) ⊆
      (document.finished numbering references documents answers).1.report.entries := by
  intro diagnostic hmem
  exact List.mem_append_left _ (List.mem_append_right _ hmem)

end SourceDocument

/--
Every embed with a label that is left on a resolved page has one of four fates, or came with the
text that a reference to a remote page was given.
-/
theorem resolveProject_accounts_for_embeds [Text.Slugger] (source : RemoteSource)
    (numbering : Numbering) (references : List ProjectReference)
    (documents : List SourceDocument) (cache : RemoteCache)
    (place : Nat) (document : SourceDocument) (hdocument : documents[place]? = some document) :
    let answers := cache.pageAt source
    let scope := document.scope numbering references documents
    let tree := (document.linked numbering references documents).content
    let filled := document.filledWith numbering references documents answers
    ∃ resolved,
      (resolveProject source numbering references documents cache).1.documents[place]? =
        some resolved ∧ resolved.path = document.path ∧
      ∀ landing node label, resolved.content.at? landing = some node →
        label? node.toAttributes = some label →
        (∃ path stood, filled.liftedPath? path = some landing ∧ filled.at? path = some stood ∧
          node.source = stood.source ∧
          Fate scope tree answers resolved.report.entries label path stood) ∨
        ∃ reference request update, (reference, request) ∈
            RemoteReference.requests filled.liftEmbeds ∧ reference <+: landing ∧
          RemoteReference.answer request (answers request.dataUrl) = .ok update ∧
          ∃ child ∈ update.children, ∃ original ∈ child.nodes,
            label? original.toAttributes = some label := by
  intro answers scope tree filled
  have hresolved : (resolveProject source numbering references documents
      cache).1.documents[place]? =
        some (document.finished numbering references documents answers).1 := by
    rw [SourceDocument.documents_eq_finished, List.getElem?_map, hdocument]
    rfl
  refine ⟨_, hresolved, rfl, ?_⟩
  intro landing node label hnode hlabel
  rw [SourceDocument.content_finished] at hnode
  -- from the last pass to the first: text for references, then lifting, then filling
  rcases RemoteReference.exists_origin_of_at?_outcome hnode with
    ⟨lifted, hlifted, hsame⟩ | ⟨reference, request, update, hrequest, habove, hupdate, child,
      hchild, original, horiginal, hsame⟩
  · left
    have hattributes : label? lifted.toAttributes = some label := by
      rw [hsame] at hlabel
      exact hlabel
    have hembed := is_embed_of_label? hattributes
    obtain ⟨path, stood, hpath, hstood, hstoodEmbed, hsource⟩ :=
      Node.exists_embed_of_at?_liftEmbeds hlifted hembed
    have htype : stood.type = lifted.type := by
      have hstoodType : stood.type = NodeType.embed := by simpa [Attributes.is] using hstoodEmbed
      have hliftedType : lifted.type = NodeType.embed := by simpa [Attributes.is] using hembed
      exact hstoodType.trans hliftedType.symm
    have hstoodLabel : label? stood.toAttributes = some label :=
      (label?_congr htype hsource.symm).trans hattributes
    have hcontents := contents_eq source scope tree cache
    have hat : (fillAll tree (contents source scope tree cache)).at? path = some stood := by
      rw [hcontents]
      exact hstood
    have hfate := fate_of_at?_fillAll hat hstoodLabel
    rw [hcontents] at hfate
    refine ⟨path, stood, hpath, hstood, ?_, hfate.mono
      (document.found_subset_finished numbering references documents answers)⟩
    have hnodeSource : node.source = lifted.source := by rw [hsame]
    exact hnodeSource.trans hsource
  · right
    have hattributes : label? original.toAttributes = some label := by
      rw [hsame] at hlabel
      exact hlabel
    exact ⟨reference, request, update, hrequest, habove, hupdate, child, hchild, original,
      horiginal, hattributes⟩

/-! ## Embeds in copies -/

namespace SourceDocument

def relaying : SourceDocument where
  path := "a.md"
  page := { slug := "a", url := "/a" }
  content := .ofType NodeType.root
    [{ type := NodeType.embed, source := some { label := some "b.md#part" } }]

def relayed : List SourceDocument :=
  [relaying,
   { path := "b.md", page := { slug := "b", url := "/b" }
     content := .ofType NodeType.root
       [{ type := NodeType.heading, identifier := some "part", children := [.text "Part"] },
        { type := NodeType.embed, source := some { label := some "c.md#deep" } }] },
   { path := "c.md", page := { slug := "c", url := "/c" }
     content := .ofType NodeType.root
       [{ type := NodeType.heading, identifier := some "deep", children := [.text "Deep"] }] }]

end SourceDocument

open SourceDocument

private theorem relayed_resolved :
    ((resolveProject (fun _ => none) {} [] relayed {}).1.documents[0]?).any (fun resolved =>
      resolved.report.entries.isEmpty && resolved.content.nodes.any (fun node =>
        label? node.toAttributes == some "c.md#deep" &&
          (node.source.bind (·.url)).isNone)) = true := by
  decide +kernel

private theorem exists_relayed_embed : ∃ resolved node,
    (resolveProject (fun _ => none) {} [] relayed {}).1.documents[0]? = some resolved ∧
      resolved.report.entries = [] ∧ node ∈ resolved.content.nodes ∧
      label? node.toAttributes = some "c.md#deep" ∧ node.source.bind (·.url) = none := by
  obtain ⟨resolved, hresolved, hboth⟩ := (Option.any_eq_true _ _).1 relayed_resolved
  obtain ⟨hentries, hnodes⟩ := Bool.and_eq_true_iff.1 hboth
  obtain ⟨node, hnode, hfound⟩ := List.any_eq_true.1 hnodes
  obtain ⟨hlabel, hurl⟩ := Bool.and_eq_true_iff.1 hfound
  have hnone : resolved.report.entries = [] := List.isEmpty_iff.1 hentries
  have hsame : label? node.toAttributes = some "c.md#deep" := by simpa using hlabel
  exact ⟨resolved, node, hresolved, hnone, hnode, hsame, Option.isNone_iff_eq_none.1 hurl⟩

private theorem url_of_relayed_answer {embedded : Embedded}
    (h : (answer (relaying.scope {} [] relayed) "c.md#deep"
      (RemoteCache.pageAt (fun _ => none) {})).result = some embedded) :
    embedded.source.url = some "/c" := by
  have hurl : (answer (relaying.scope {} [] relayed) "c.md#deep"
      (RemoteCache.pageAt (fun _ => none) {})).result.map (fun embedded => embedded.source.url) =
        some (some "/c") := by
    decide +kernel
  rw [h, Option.map_some] at hurl
  exact Option.some.inj hurl

/-- Not every embed that is left on a resolved page is filled or reported. -/
theorem relayed_leaves_embed : ¬ ∀ (source : RemoteSource) (numbering : Numbering)
    (references : List ProjectReference) (documents : List SourceDocument) (cache : RemoteCache)
    (place : Nat) (document : SourceDocument) (resolved : ResolvedDocument),
    documents[place]? = some document →
    (resolveProject source numbering references documents cache).1.documents[place]? =
      some resolved →
    ∀ node ∈ resolved.content.nodes, ∀ label, label? node.toAttributes = some label →
      (∃ embedded, (answer (document.scope numbering references documents) label
          (cache.pageAt source)).result = some embedded ∧ node.source = some embedded.source) ∨
        ∃ diagnostic ∈ resolved.report.entries, diagnostic.RaisedFor label := by
  intro hall
  obtain ⟨resolved, node, hresolved, hentries, hnode, hlabel, hurl⟩ := exists_relayed_embed
  rcases hall (fun _ => none) {} [] relayed {} 0 relaying resolved rfl hresolved node hnode
    "c.md#deep" hlabel with ⟨embedded, hembedded, hsource⟩ | ⟨diagnostic, hmem, -⟩
  · have hfilled := url_of_relayed_answer hembedded
    rw [hsource, Option.bind_some, hfilled] at hurl
    exact absurd hurl (Option.some_ne_none "/c")
  · rw [hentries] at hmem
    exact absurd hmem (List.not_mem_nil)

/-- It came with the section that the page embeds. -/
theorem relayed_copies_embed : ∃ resolved node embedded,
    (resolveProject (fun _ => none) {} [] relayed {}).1.documents[0]? = some resolved ∧
      node ∈ resolved.content.nodes ∧ label? node.toAttributes = some "c.md#deep" ∧
      (answer (relaying.scope {} [] relayed) "b.md#part"
        (RemoteCache.pageAt (fun _ => none) {})).result = some embedded ∧
      ∃ original ∈ embedded.target.nodes,
        label? original.toAttributes = some "c.md#deep" := by
  obtain ⟨resolved, hresolved, -, hfates⟩ := resolveProject_accounts_for_embeds
    (fun _ => none) {} [] relayed {} 0 relaying rfl
  obtain ⟨resolved', node, hresolved', hentries, hnode, hlabel, hurl⟩ := exists_relayed_embed
  have hsame : resolved' = resolved := Option.some.inj (hresolved'.symm.trans hresolved)
  rw [hsame] at hentries hnode
  obtain ⟨landing, hat⟩ := Node.mem_nodes_iff_exists_at?.1 hnode
  have hasked : requests (relaying.linked {} [] relayed).content = [([0], "b.md#part")] := by
    decide +kernel
  have hreferences : RemoteReference.requests (relaying.filledWith {} [] relayed
      (RemoteCache.pageAt (fun _ => none) {})).liftEmbeds = [] := by
    decide +kernel
  rcases hfates landing node "c.md#deep" hat hlabel with
    ⟨path, stood, -, -, hsource, hfate⟩ | ⟨reference, request, update, hrequest, -⟩
  · cases hfate with
    | filled hrequest hembed hanswer hstood =>
        have hfilled := url_of_relayed_answer hanswer
        rw [hsource, hstood] at hurl
        exact absurd (hfilled.symm.trans hurl) (Option.some_ne_none "/c")
    | reported hrequest hanswer hmem hraised =>
        rw [hentries] at hmem
        exact absurd hmem (List.not_mem_nil)
    | inside hrequest habove hne hanswer hmem hraised =>
        rw [hentries] at hmem
        exact absurd hmem (List.not_mem_nil)
    | copied hrequest habove hne hanswer horiginal hcopy =>
        rw [hasked] at hrequest
        have houter := (Prod.mk.inj (List.mem_singleton.1 hrequest)).2
        rw [houter] at hanswer
        exact ⟨resolved, node, _, hresolved, hnode, hlabel, hanswer, _, horiginal, hcopy⟩
  · rw [hreferences] at hrequest
    exact absurd hrequest (List.not_mem_nil)

end CrossDoc
