import CrossDoc.CommandLine.Slug
import CrossDoc.Proofs.Project.Stages

/-!
# Anchors after all passes

Targets are registered before any other pass runs, and the passes that follow rewrite and remove
nodes. None of them changes what a node that it leaves in place is known by, as long as the node
does not turn from a link into a reference. So a target keeps its anchor
(`resolveProject_keeps_anchor`) where its node is not below an embed that is filled and outlasts
lifting.
-/

namespace CrossDoc

structure Attributes.KeepsIdentity (before after : Attributes) : Prop where
  type : after.type = before.type
  identifier : after.identifier = before.identifier
  label : after.label = before.label
  htmlId : after.htmlId = before.htmlId

theorem Attributes.KeepsIdentity.trans {before between after : Attributes}
    (h : before.KeepsIdentity between) (h' : between.KeepsIdentity after) :
    before.KeepsIdentity after where
  type := h'.type.trans h.type
  identifier := h'.identifier.trans h.identifier
  label := h'.label.trans h.label
  htmlId := h'.htmlId.trans h.htmlId

/-! ## Both passes over references -/

theorem WorkingDocument.keepsIdentity_treat {index : ProjectIndex} {projects : List LoadedProject}
    {file : String} {attributes : Attributes}
    (h : ((linkRules index projects file).treat attributes).type = attributes.type) :
    attributes.KeepsIdentity ((linkRules index projects file).treat attributes) := by
  unfold LinkRules.treat at h ⊢
  cases hlink : attributes.is NodeType.link with
  | false =>
      simp only [Bool.false_eq_true, if_false]
      exact ⟨rfl, rfl, rfl, rfl⟩
  | true =>
      simp only [hlink, if_true] at h ⊢
      have hreference := Attributes.type_ne_of_is_link hlink
      by_cases hresolved : ((linkRules index projects file).offer attributes).outcome = .resolved
      · obtain ⟨uri, turned, -, hrule⟩ := offer_cases hresolved
        rcases hrule with ⟨hturned, hoffer⟩ | ⟨hturned, hoffer⟩
        · obtain ⟨project, entry, rfl⟩ := ExternalLink.resolve_cases hturned
          rw [hoffer] at h ⊢
          unfold ExternalLink.toEntry at h ⊢
          cases hpage : entry.isPage with
          | true => exact ⟨rfl, rfl, rfl, rfl⟩
          | false => exact absurd (by simpa [hpage] using h.symm) hreference
        · rw [hoffer] at h ⊢
          rcases InternalLink.resolve_cases hturned with ⟨-, url, rfl⟩ | ⟨owner, target, -, rfl⟩
          · exact ⟨rfl, rfl, rfl, rfl⟩
          · exact absurd h.symm hreference
      · rcases (linkRules index projects file).offer_cases attributes with
          ⟨-, urlSource, hoffer⟩ | ⟨hyes, -⟩
        · rw [hoffer]
          exact ⟨rfl, rfl, rfl, rfl⟩
        · exact absurd hyes hresolved

theorem Attributes.type_ne_of_isTarget {attributes : Attributes}
    (h : attributes.isTarget = true) : attributes.type ≠ NodeType.crossReference := by
  intro htype
  simp [isTarget, NodeType.pointing, htype] at h

namespace SourceDocument

variable [Text.Slugger] (source : RemoteSource) (numbering : Numbering)
  (references : List ProjectReference) (documents : List SourceDocument) (cache : RemoteCache)

def StaysLink (document : SourceDocument) (attributes : Attributes) : Prop :=
  ((document.linkRules numbering references documents).treat attributes).type = attributes.type

variable {numbering references documents} in
theorem keepsIdentity_treat {document : SourceDocument} {attributes : Attributes}
    (htarget : attributes.isTarget = true)
    (h : document.StaysLink numbering references documents attributes) :
    attributes.KeepsIdentity (document.treat numbering references documents attributes) := by
  have hlinked := WorkingDocument.keepsIdentity_treat h
  have hne := Attributes.type_ne_of_isTarget htarget
  unfold treat
  rw [CrossReference.treat_of_wanted?_eq_none
    (CrossReference.wanted?_eq_none_of_type_ne (hlinked.type ▸ hne))]
  exact hlinked

end SourceDocument

/-! ## Embeds -/

/-- What becomes of a page: it is filled, lifted, and its references get text. -/
theorem WorkingDocument.exists_content_finish (source : RemoteSource) (index : ProjectIndex)
    (trees : SortedMap Node) (projects : List LoadedProject) (document : WorkingDocument)
    (cache : RemoteCache) :
    ∃ after, (document.finish source index trees projects cache).1.1.content =
      (RemoteReference.resolve source (Embed.fillAll document.content
        (Embed.contents source { file := document.path, index, trees, projects }
          document.content cache)).liftEmbeds after).1.tree := by
  let books : Embed.Books := { tree := document.content, dependencies := [], graph := {} }
  refine ⟨(Embed.resolveAll source { file := document.path, index, trees, projects } books
    cache).2, ?_⟩
  rw [← Embed.tree_resolveAll books]
  rfl

namespace SourceDocument

variable [Text.Slugger] (source : RemoteSource) (numbering : Numbering)
  (references : List ProjectReference) (documents : List SourceDocument) (cache : RemoteCache)

def cacheAt (place : Nat) : RemoteCache :=
  let linked := documents.map (fun document => document.linked numbering references documents)
  (RemoteCache.each (WorkingDocument.finish source (indexOf numbering documents)
    (WorkingDocument.trees linked) (ExternalLink.projects references))
    (linked.take place) cache).2

def contentsAt (place : Nat) (document : SourceDocument) : List (Path × EmbedAnswer) :=
  Embed.contents source (document.scope numbering references documents)
    (document.linked numbering references documents).content
    (cacheAt source numbering references documents cache place)

def filledAt (place : Nat) (document : SourceDocument) : Node :=
  Embed.fillAll (document.linked numbering references documents).content
    (document.contentsAt source numbering references documents cache place)

theorem exists_resolved {place : Nat} {document : SourceDocument}
    (h : documents[place]? = some document) :
    ∃ resolved after, (resolveProject source numbering references documents
        cache).1.documents[place]? = some resolved ∧ resolved.path = document.path ∧
      resolved.content = (RemoteReference.resolve source
        (document.filledAt source numbering references documents cache place).liftEmbeds
        after).1.tree := by
  rw [documents_resolveProject, List.getElem?_map, RemoteCache.getElem?_each, List.getElem?_map, h]
  obtain ⟨after, hcontent⟩ := WorkingDocument.exists_content_finish source
    (indexOf numbering documents)
    (WorkingDocument.trees (documents.map (fun document =>
      document.linked numbering references documents)))
    (ExternalLink.projects references) (document.linked numbering references documents)
    (cacheAt source numbering references documents cache place)
  exact ⟨_, after, rfl, rfl, hcontent⟩

/-! ## All passes -/

/--
The node at a path of an enumerated page is still there in the end: both passes over references
leave it a link if it is one, no embed that is filled is above it, and lifting does not take it out.
-/
structure Outlasts (place : Nat) (document : SourceDocument) (path : Path) : Prop where
  link : ∀ node, (document.enumerate numbering).content.at? path = some node →
    document.StaysLink numbering references documents node.toAttributes
  clear : Embed.ClearOf
    (document.contentsAt source numbering references documents cache place) path
  lifted : (document.filledAt source numbering references documents cache
    place).OutlastsLifting path

variable {source numbering references documents cache}

theorem exists_keepsIdentity {place : Nat} {document : SourceDocument}
    (hdocument : documents[place]? = some document) {resolved : ResolvedDocument}
    (hresolved : (resolveProject source numbering references documents
      cache).1.documents[place]? = some resolved)
    {path : Path} {node : Node}
    (hat : (document.enumerate numbering).content.at? path = some node)
    (htarget : node.isTarget = true)
    (h : document.Outlasts source numbering references documents cache place path) :
    ∃ kept ∈ resolved.content.nodes, node.KeepsIdentity kept.toAttributes := by
  obtain ⟨linked, hlinked, htreated⟩ := document.at?_linked numbering references documents hat
  obtain ⟨filled, hfilled, hsource⟩ := Embed.at?_fillAll h.clear hlinked
  obtain ⟨landing, hlanding⟩ := Node.exists_liftedPath?_iff.2 h.lifted
  obtain ⟨own, found, given, -, hfound, -, hlifted⟩ := Node.at?_liftEmbeds hlanding
  obtain rfl := Option.some.inj (hfilled.symm.trans hfound)
  obtain ⟨resolved', after, hresolved', -, hcontent⟩ :=
    exists_resolved source numbering references documents cache hdocument
  obtain rfl := Option.some.inj (hresolved.symm.trans hresolved')
  obtain ⟨kept, hkept, hnumber⟩ := RemoteReference.at?_resolve source after
    hlifted
  refine ⟨kept, Node.mem_nodes_iff_exists_at?.2 ⟨landing, hcontent ▸ hkept⟩, ?_⟩
  have htreat : node.KeepsIdentity linked.toAttributes :=
    htreated ▸ keepsIdentity_treat htarget (h.link node hat)
  have hfill : linked.KeepsIdentity filled.toAttributes :=
    hsource ▸ ⟨rfl, rfl, rfl, rfl⟩
  have hlift : filled.KeepsIdentity (own.kept filled given) := ⟨rfl, rfl, rfl, rfl⟩
  have hlast : (own.kept filled given).KeepsIdentity kept.toAttributes :=
    hnumber ▸ ⟨rfl, rfl, rfl, rfl⟩
  exact htreat.trans (hfill.trans (hlift.trans hlast))

end SourceDocument

/--
A target of a page of a project, unless it is the page itself, is the first node of the page with
its identifier. If that node outlasts all passes, the resolved page has a node with the target's
anchor.
-/
theorem resolveProject_keeps_anchor [Text.Slugger] (source : RemoteSource) (numbering : Numbering)
    (references : List ProjectReference) (documents : List SourceDocument) (cache : RemoteCache)
    (hpaths : (documents.map (·.path)).Nodup) (place : Nat) (document : SourceDocument)
    (hdocument : documents[place]? = some document) :
    let resolution := (resolveProject source numbering references documents cache).1
    let enumerated := (document.enumerate numbering).content
    ∃ resolved page, resolution.documents[place]? = some resolved ∧
      resolved.path = document.path ∧ resolution.index.get? document.path = some page ∧
      ∀ identifier target, page.targets.isFileTarget identifier = false →
        page.targets.targets.get? identifier = some target →
        ∃ node, enumerated.nodes.find? (fun node => node.targetIdentifier? == some identifier) =
            some node ∧
          target.Describes document.page.url node ∧
          ∀ path, enumerated.at? path = some node →
            document.Outlasts source numbering references documents cache place path →
            ∃ kept ∈ resolved.content.nodes, kept.htmlId = some target.htmlId ∧
              kept.identifier = some target.identifier ∧ kept.type = node.type := by
  intro resolution enumerated
  obtain ⟨resolved, after, hresolved, hpath, -⟩ :=
    SourceDocument.exists_resolved source numbering references documents cache hdocument
  have hpage : resolution.index.get? document.path = some
      { targets := (document.enumerate numbering).targets, page := document.page } := by
    rw [SourceDocument.index_resolveProject]
    exact SourceDocument.get?_indexOf_of_mem hpaths (List.mem_of_getElem? hdocument)
  refine ⟨resolved, _, hresolved, hpath, hpage, ?_⟩
  intro identifier target hfile htarget
  have hother : (document.enumerate numbering).targets.fileTarget ≠ some identifier := by
    simpa [PageTargets.isFileTarget] using hfile
  obtain ⟨node, hfirst, -, hdescribes⟩ := SourceDocument.describes_enumerate hother htarget
  refine ⟨node, hfirst, hdescribes, ?_⟩
  intro path hat houtlasts
  have hidentifier : node.targetIdentifier? = some identifier := by
    simpa using List.find?_some hfirst
  have hisTarget : node.isTarget = true := by
    unfold Attributes.targetIdentifier? at hidentifier
    split at hidentifier
    · assumption
    · simp at hidentifier
  obtain ⟨kept, hmem, hkept⟩ :=
    SourceDocument.exists_keepsIdentity hdocument hresolved hat hisTarget houtlasts
  exact ⟨kept, hmem, hkept.htmlId.trans hdescribes.htmlId,
    hkept.identifier.trans hdescribes.identifier, hkept.type⟩

/-! ## Anchors that are lost -/

def ProjectResolution.danglingAnchors (resolution : ProjectResolution) (place : Nat) :
    List String :=
  ((resolution.documents[place]?).bind (fun resolved =>
    (resolution.index.get? resolved.path).map (fun page =>
      ((page.targets.targets.values.filter (fun target =>
          !page.targets.isFileTarget target.identifier)).map (·.htmlId)).filter (fun anchor =>
        resolved.content.nodes.all (fun node => node.htmlId != some anchor))))).getD []

def Node.labelled (type identifier : String) (children : List Node) : Node :=
  { type, identifier := some identifier, children }

/--
A page with a link that becomes a reference, a heading below an embed that is filled, a figure whose
only embed holds a figure with a caption, and an embed that holds just a figure.
-/
def SourceDocument.losing : SourceDocument where
  path := "a.md"
  page := { slug := "a", url := "/a" }
  content := .ofType NodeType.root
    [.labelled NodeType.heading "intro" [],
     { Node.labelled NodeType.link "jump" [] with url := some "#intro" },
     { Node.labelled NodeType.embed "filled" [.labelled NodeType.heading "below" []] with
       source := some { label := some "b.md#part" } },
     .labelled NodeType.container "figure"
       [.labelled NodeType.embed "sole"
         [.labelled NodeType.container "inner" [.labelled NodeType.caption "dropped" []]]],
     .labelled NodeType.embed "wrapper" [.labelled NodeType.container "panel" []]]

def SourceDocument.copied : SourceDocument where
  path := "b.md"
  page := { slug := "b", url := "/b" }
  content := .ofType NodeType.root [.labelled NodeType.heading "part" []]

open SourceDocument

theorem losing_danglingAnchors : ([losing, copied].map (·.path)).Nodup ∧
    (resolveProject (fun _ => none) {} [] [losing, copied] {}).1.danglingAnchors 0 =
      ["below", "dropped", "inner", "jump", "sole", "wrapper"] := by
  decide +kernel

/-- The heading of the page has none of this against it. -/
theorem losing_keeps_intro : ∃ resolved,
    (resolveProject (fun _ => none) {} [] [losing, copied] {}).1.documents[0]? = some resolved ∧
      ∃ kept ∈ resolved.content.nodes, kept.htmlId = some "intro" := by
  obtain ⟨resolved, page, hresolved, -, hpage, hkeeps⟩ := resolveProject_keeps_anchor
    (fun _ => none) {} [] [losing, copied] {} (by decide) 0 losing rfl
  obtain ⟨heading, hat⟩ : ∃ heading, (losing.enumerate {}).content.at? [0] = some heading :=
    Option.isSome_iff_exists.1 (by decide +kernel)
  have hheading (p : Node → Bool)
      (h : ((losing.enumerate {}).content.at? [0]).all p = true) : p heading = true := by
    rw [hat] at h
    exact h
  rw [index_resolveProject] at hpage
  have hindexed (p : IndexedPage → Bool)
      (h : ((indexOf {} [losing, copied]).get? losing.path).all p = true) : p page = true := by
    rw [hpage] at h
    exact h
  have hroot : ((losing.enumerate {}).content.targetIdentifier? == some "intro") = false := by
    decide +kernel
  have hown : (heading.targetIdentifier? == some "intro") = true :=
    hheading (fun node => node.targetIdentifier? == some "intro") (by decide +kernel)
  have hfirst : (losing.enumerate {}).content.nodes.find?
      (fun node => node.targetIdentifier? == some "intro") = some heading := by
    obtain ⟨first, hchild, hsame⟩ := Node.at?_cons_eq_some_iff.1 hat
    obtain rfl : first = heading := Option.some.inj hsame
    obtain ⟨rest, hrest⟩ := List.head?_eq_some_iff.1 (List.head?_eq_getElem?.trans hchild)
    rw [Node.nodes_eq_cons, List.find?_cons, hroot, hrest, List.flatMap_cons,
      Node.nodes_eq_cons first, List.cons_append, List.find?_cons, hown]
  have hfile : page.targets.isFileTarget "intro" = false := by
    simpa using hindexed (fun page => !page.targets.isFileTarget "intro") (by decide +kernel)
  obtain ⟨target, htarget⟩ := Option.isSome_iff_exists.1
    (hindexed (fun page => (page.targets.targets.get? "intro").isSome) (by decide +kernel))
  obtain ⟨node, hnode, hdescribes, hpath⟩ := hkeeps "intro" target hfile htarget
  obtain rfl := Option.some.inj (hfirst.symm.trans hnode)
  have hlink : losing.StaysLink {} [] [losing, copied] heading.toAttributes := by
    unfold StaysLink
    simpa using hheading (fun node => decide
      (((losing.linkRules {} [] [losing, copied]).treat node.toAttributes).type = node.type))
      (by decide +kernel)
  obtain ⟨kept, hmem, hkept, -⟩ := hpath [0] hat
    { link := fun node hnode => Option.some.inj (hat.symm.trans hnode) ▸ hlink
      clear := by decide +kernel
      lifted := by decide +kernel }
  have hanchor : (heading.htmlId == some "intro") = true :=
    hheading (fun node => node.htmlId == some "intro") (by decide +kernel)
  have hsame : heading.htmlId = some "intro" := by simpa using hanchor
  exact ⟨resolved, hresolved, kept, hmem, hkept.trans (hdescribes.htmlId.symm.trans hsame)⟩

end CrossDoc
