import CrossDoc.Proofs.Embed.Answers
import CrossDoc.Proofs.Link.External
import CrossDoc.Proofs.Link.Promises
import CrossDoc.Proofs.Node.Section

/-!
# Content of other projects

A label of an embed may lead to an entry of another project's index. A reference with a fragment
finds the entry by its identifier or by its anchor, and an entry may lack either of them
(`RemoteIndex.name?_of_find?`). What is embedded goes by the identifier alone: an entry for a page
stands for the whole page, but so does any other entry that has no identifier (`taken?`). So an
embed has what its entry names just if the entry has an identifier, or if it names all of the page
(`resolve_takes_named_iff`).
-/

namespace CrossDoc

/-- What the target of an entry is called: by its identifier, or else by its anchor. -/
def IndexEntry.name? (entry : IndexEntry) : Option String := entry.identifier <|> entry.htmlId

theorem RemoteIndex.name?_of_find? {entries : List IndexEntry} {page fragment : String}
    {entry : IndexEntry} (h : find? entries page (some fragment) = some entry)
    (hnone : entry.identifier = none) : entry.name? = some fragment := by
  have hmatches := List.find?_some h
  rw [hnone] at hmatches
  unfold IndexEntry.name?
  rw [hnone]
  simpa using And.right (Bool.and_eq_true_iff.1 hmatches)

namespace ExternalLink

variable {projects : List LoadedProject} {label : String} {uri : XrefUri}
  {project : LoadedProject} {entry : IndexEntry}

structure LeadsTo (projects : List LoadedProject) (label : String) (uri : XrefUri)
    (project : LoadedProject) (entry : IndexEntry) : Prop where
  parsed : XrefUri.parse (XrefUri.modernize label) = .ok uri
  loaded : projects.find? (fun project => project.key == uri.key) = some project
  listed : RemoteIndex.find? project.entries uri.page uri.identifier = some entry

theorem LeadsTo.claims (h : LeadsTo projects label uri project entry) :
    claims projects label = true := by
  obtain ⟨hkey, hstarts⟩ := startsWithKey_of_parse h.parsed
  have hsame : project.key = uri.key := by simpa using List.find?_some h.loaded
  rw [← hsame] at hkey hstarts
  refine List.any_eq_true.2 ⟨project, List.mem_of_find?_eq_some h.loaded, ?_⟩
  exact Bool.and_eq_true_iff.2 ⟨by simpa using hkey, List.isPrefixOf_iff_prefix.2 hstarts⟩

theorem LeadsTo.resolve (h : LeadsTo projects label uri project entry) :
    resolve projects (Node.link label).toAttributes =
      .ok (toEntry (Node.link label).toAttributes project entry) := by
  have hwritten : (Node.link label).toAttributes.writtenUrl.getD "" = label := rfl
  unfold ExternalLink.resolve
  simp only [hwritten, h.parsed, h.loaded, h.listed]

end ExternalLink

namespace Embed

variable {label : String} {reference : Attributes} {page : RemotePage}

/-! ## What is copied -/

def rebased (label : String) (reference : Attributes) (page : RemotePage) (nodes : List Node) :
    Embedded :=
  let source : Dependency :=
    { url := reference.url, remoteBaseUrl := reference.remoteBaseUrl, label := some label }
  { target := (Node.ofType NodeType.block nodes).rebase reference
    source := source.withPageDetails page.kind page.slug page.location page.frontmatter
    localFile := none }

theorem remoteBaseUrl_rebased (nodes : List Node) :
    (rebased label reference page nodes).source.remoteBaseUrl = reference.remoteBaseUrl := rfl

theorem children_target_rebased (nodes : List Node) :
    (rebased label reference page nodes).target.children =
      nodes.map (Node.rebase reference) :=
  Node.children_mapAttributes (Attributes.rebase reference) (Node.ofType NodeType.block nodes)

/-- What is taken of a page for an identifier, or for none: the page as a whole. -/
def taken? (page : RemotePage) : Option String → Option (List Node)
  | none => some page.content.children
  | some identifier =>
    if page.content.selectTarget identifier = [] then none
    else some (page.content.selectTarget identifier)

theorem taken?_some_eq_some_iff {identifier : String} {nodes : List Node} :
    taken? page (some identifier) = some nodes ↔
      page.content.selectTarget identifier ≠ [] ∧
        page.content.selectTarget identifier = nodes := by
  rw [taken?]
  split
  · rename_i hempty
    simp [hempty]
  · rename_i hfound
    simp [hfound]

theorem mem_nodes_of_taken? {identifier? : Option String} {nodes : List Node} {node : Node}
    (h : taken? page identifier? = some nodes) (hnode : node ∈ nodes) :
    node ∈ page.content.nodes := by
  cases identifier? with
  | none =>
      obtain rfl := Option.some.inj h
      exact Node.mem_nodes_iff.2 (Or.inr ⟨node, hnode, Node.mem_nodes_self node⟩)
  | some identifier =>
      obtain ⟨-, rfl⟩ := taken?_some_eq_some_iff.1 h
      exact Node.mem_nodes_of_mem_selectTarget hnode

theorem toOption_resolveRemote (label : String) (reference : Attributes)
    (page? : Option RemotePage) :
    (resolveRemote label reference page?).toOption = page?.bind (fun page =>
      (taken? page reference.identifier).map (rebased label reference page)) := by
  cases page? with
  | none => rfl
  | some page =>
      unfold resolveRemote
      cases reference.identifier with
      | none => rfl
      | some identifier =>
          simp only [RemoteReference.content, taken?, Option.bind_some]
          cases page.content.selectTarget identifier with
          | nil => rfl
          | cons first rest => rfl

section Answers

variable {scope : EmbedScope} {answers : RemoteCache.PageAnswers}

theorem result_remoteAnswer : (remoteAnswer scope label answers).result =
    (ExternalLink.resolve scope.projects (Node.link label).toAttributes).toOption.bind
      (fun reference => reference.dataUrl.bind (fun dataUrl =>
        (resolveRemote label reference (answers dataUrl)).toOption)) := by
  rw [← ExternalLink.result_resolve_rule]
  unfold remoteAnswer
  cases hlink : ((ExternalLink.rule scope.projects).resolve (Node.link label).toAttributes).result
  with
  | error diagnostic => simp [hlink, Except.toOption]
  | ok reference =>
      cases hdata : reference.dataUrl with
      | none => simp [hlink, hdata, Except.toOption]
      | some dataUrl =>
          cases hremote : resolveRemote label reference (answers dataUrl) with
          | ok embedded => simp [hlink, hdata, hremote, Except.toOption]
          | error diagnostic => simp [hlink, hdata, hremote, Except.toOption]

theorem exists_rebased_of_remoteAnswer {embedded : Embedded}
    (h : (remoteAnswer scope label answers).result = some embedded) :
    ∃ reference dataUrl page nodes,
      ExternalLink.resolve scope.projects (Node.link label).toAttributes = .ok reference ∧
      reference.dataUrl = some dataUrl ∧ answers dataUrl = some page ∧
      taken? page reference.identifier = some nodes ∧
      embedded = rebased label reference page nodes := by
  simp only [result_remoteAnswer, toOption_resolveRemote, Option.bind_eq_some_iff,
    Option.map_eq_some_iff] at h
  obtain ⟨reference, hreference, dataUrl, hdata, page, hpage, nodes, hnodes, hembedded⟩ := h
  refine ⟨reference, dataUrl, page, nodes, ?_, hdata, hpage, hnodes, hembedded.symm⟩
  cases hlink : ExternalLink.resolve scope.projects (Node.link label).toAttributes with
  | ok found =>
      rw [hlink] at hreference
      exact congrArg Except.ok (Option.some.inj hreference)
  | error diagnostic =>
      rw [hlink] at hreference
      exact absurd hreference (Option.some_ne_none reference).symm

end Answers

section Entries

variable {source : RemoteSource} {scope : EmbedScope} {cache : RemoteCache} {uri : XrefUri}
  {project : LoadedProject} {entry : IndexEntry} {fragment : String}

def entryReference (label : String) (project : LoadedProject) (entry : IndexEntry) : Attributes :=
  ExternalLink.toEntry (Node.link label).toAttributes project entry

theorem identifier_entryReference (label : String) (project : LoadedProject)
    (entry : IndexEntry) :
    (entryReference label project entry).identifier =
      if entry.isPage then none else entry.identifier := by
  unfold entryReference ExternalLink.toEntry
  cases entry.isPage with
  | true => rfl
  | false => rfl

/-- An embed of an entry gets what is taken of the page of that entry. -/
theorem result_resolve_of_leadsTo
    (h : ExternalLink.LeadsTo scope.projects label uri project entry)
    (hpage : cache.pageAt source (project.url ++ entry.data) = some page) :
    (resolve source scope label cache).1.result =
      (taken? page (if entry.isPage then none else entry.identifier)).map
        (rebased label (entryReference label project entry) page) := by
  have hdata : (entryReference label project entry).dataUrl = some (project.url ++ entry.data) :=
    ExternalLink.dataUrl_toEntry (Node.link label).toAttributes project entry
  have hlink : ExternalLink.resolve scope.projects (Node.link label).toAttributes =
      .ok (entryReference label project entry) := h.resolve
  rw [(readsPages_resolve source scope label).result, answer, if_pos h.claims,
    result_remoteAnswer, hlink, ← identifier_entryReference label]
  simp only [Except.toOption, Option.bind_some, hdata, hpage]
  exact toOption_resolveRemote label _ (some page)

/--
An entry that is no page names its target by an identifier or an anchor. Its embed has what the
page has under that name just if the entry has an identifier, or if that is all of the page; with no
identifier the embed has the whole page. The embed fails only where the page has no such identifier.
-/
theorem resolve_takes_named_iff
    (hlabel : ExternalLink.LeadsTo scope.projects label uri project entry)
    (hfragment : uri.identifier = some fragment) (hkind : entry.isPage = false)
    (hpage : cache.pageAt source (project.url ++ entry.data) = some page) :
    ∃ name, entry.name? = some name ∧
      ((resolve source scope label cache).1.result.isSome = true ↔
        entry.identifier = none ∨ page.content.selectTarget name ≠ []) ∧
      ∀ embedded, (resolve source scope label cache).1.result = some embedded →
        let place := Node.rebase (entryReference label project entry)
        (embedded.target.children = (page.content.selectTarget name).map place ↔
          entry.identifier.isSome = true ∨
            page.content.children.map place = (page.content.selectTarget name).map place) ∧
        (entry.identifier = none → embedded.target.children = page.content.children.map place) := by
  rw [result_resolve_of_leadsTo hlabel hpage, if_neg (by simp [hkind])]
  cases hidentifier : entry.identifier with
  | none =>
      have hname : entry.name? = some fragment :=
        RemoteIndex.name?_of_find? (hfragment ▸ hlabel.listed) hidentifier
      refine ⟨fragment, hname, by simp [taken?], ?_⟩
      intro embedded hembedded place
      have hchildren : embedded.target.children = page.content.children.map place := by
        rw [← Option.some.inj hembedded, children_target_rebased]
      simp [hchildren]
  | some identifier =>
      have hname : entry.name? = some identifier := by
        unfold IndexEntry.name?
        rw [hidentifier]
        rfl
      refine ⟨identifier, hname, ?_, ?_⟩
      · simp [taken?]
      · intro embedded hembedded place
        obtain ⟨nodes, hnodes, rfl⟩ := Option.map_eq_some_iff.1 hembedded
        obtain ⟨-, rfl⟩ := taken?_some_eq_some_iff.1 hnodes
        simp [children_target_rebased, place]

end Entries

def remoteGuide : RemotePage where
  content := .ofType NodeType.root
    [.ofType "paragraph" [.text "Before."],
      { type := NodeType.heading, identifier := some "setup", htmlId := some "setup"
        children := [.text "Setup"] }]

def anchorEntry : IndexEntry :=
  { htmlId := some "setup", url := "/guide", data := "/guide.json", kind := "heading" }

def docsProject : LoadedProject :=
  { key := "docs", url := "https://docs.example.org", entries := [anchorEntry] }

def guideScope : EmbedScope :=
  { file := "index.md", index := {}, trees := {}, projects := [docsProject] }

def guideCache : RemoteCache :=
  { pages := MemoTable.settle {} "https://docs.example.org/guide.json" (some remoteGuide) }

/-- An embed of the section gets the whole page, with the paragraph before the section. -/
theorem anchorEntry_takes_page :
    ∃ embedded, (resolve (fun _ => none) guideScope "xref:docs/guide#setup" guideCache).1.result =
        some embedded ∧
      let place := Node.rebase (entryReference "xref:docs/guide#setup" docsProject anchorEntry)
      embedded.target.children = remoteGuide.content.children.map place ∧
      embedded.target.children ≠ (remoteGuide.content.selectTarget "setup").map place := by
  have hlabel : ExternalLink.LeadsTo guideScope.projects "xref:docs/guide#setup"
      { key := "docs", page := "/guide", identifier := some "setup" } docsProject anchorEntry :=
    { parsed := by decide +kernel, loaded := by decide, listed := by decide }
  have hpage : guideCache.pageAt (fun _ => none) (docsProject.url ++ anchorEntry.data) =
      some remoteGuide := by
    have hurl : docsProject.url ++ anchorEntry.data = "https://docs.example.org/guide.json" := by
      decide
    unfold RemoteCache.pageAt guideCache
    rw [hurl, MemoTable.answer?_settle, if_pos rfl]
    rfl
  obtain ⟨name, hname, hfound, htaken⟩ :=
    resolve_takes_named_iff hlabel rfl (by decide) hpage
  obtain ⟨embedded, hembedded⟩ := Option.isSome_iff_exists.1 (hfound.2 (Or.inl rfl))
  obtain ⟨-, hwhole⟩ := htaken embedded hembedded
  obtain rfl : "setup" = name := Option.some.inj hname
  refine ⟨embedded, hembedded, hwhole rfl, ?_⟩
  rw [hwhole rfl]
  intro hsame
  have hlength := congrArg List.length hsame
  rw [List.length_map, List.length_map] at hlength
  exact absurd hlength (by decide +kernel)

end Embed

end CrossDoc
