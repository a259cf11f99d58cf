import CrossDoc.Project.Resolution
import CrossDoc.Proofs.Target.Enumeration

/-!
# The index of a project

What stands in the index under a path is a page with that path (`exists_of_get?_indexOf`), and with
distinct paths every page stands there (`get?_indexOf_of_mem`). The targets of every page in it
stand under their own identifiers.
-/

namespace CrossDoc

theorem ProjectIndex.ofPages_eq (pages : List (PageTargets × Page)) :
    ofPages pages = SortedMap.ofList (pages.map (fun entry =>
      (entry.1.file, { targets := entry.1, page := entry.2 }))) := by
  unfold ofPages SortedMap.ofList
  rw [List.foldl_map]
  rfl

/-! ## The pages of a project -/

variable [Text.Slugger]

def SourceDocument.indexOf (numbering : Numbering) (documents : List SourceDocument) :
    ProjectIndex :=
  WorkingDocument.index (documents.map (enumerate numbering))

namespace SourceDocument

theorem targets_enumerate (numbering : Numbering) (document : SourceDocument) :
    ∃ targets counters, (document.enumerate numbering).targets =
      { document.page.startTargets document.path numbering with targets, counters } := by
  obtain ⟨targets, counters, hpage⟩ := Enumeration.visitAll_page
    { page := document.page.startTargets document.path numbering } document.content.nodes
  rw [Enumeration.visitAll_nodes] at hpage
  exact ⟨targets, counters, hpage⟩

theorem file_enumerate (numbering : Numbering) (document : SourceDocument) :
    (document.enumerate numbering).targets.file = document.path := by
  obtain ⟨targets, counters, htargets⟩ := document.targets_enumerate numbering
  rw [htargets]
  exact document.page.file_startTargets document.path numbering

theorem url_enumerate (numbering : Numbering) (document : SourceDocument) :
    (document.enumerate numbering).targets.url = document.page.url := by
  obtain ⟨targets, counters, htargets⟩ := document.targets_enumerate numbering
  rw [htargets]
  exact document.page.url_startTargets document.path numbering

/-- A target of a page, unless it is the page itself, describes the first node so identified. -/
theorem describes_enumerate {numbering : Numbering} {document : SourceDocument}
    {identifier : String} {target : Target}
    (hfile : (document.enumerate numbering).targets.fileTarget ≠ some identifier)
    (htarget : (document.enumerate numbering).targets.targets.get? identifier = some target) :
    ∃ node, (document.enumerate numbering).content.nodes.find?
        (fun node => node.targetIdentifier? == some identifier) = some node ∧
      target.identifier = identifier ∧ target.Describes document.page.url node := by
  obtain ⟨targets, counters, htargets⟩ := document.targets_enumerate numbering
  have hstart : (document.page.startTargets document.path numbering).fileTarget ≠
      some identifier := by
    rw [htargets] at hfile
    exact hfile
  rw [document.page.fileTarget_startTargets document.path numbering] at hstart
  rw [← document.page.url_startTargets document.path numbering]
  exact Enumeration.describes_walk
    (document.page.get?_startTargets_of_ne document.path numbering hstart) htarget

theorem fileTarget_enumerate (numbering : Numbering) (document : SourceDocument) :
    (document.enumerate numbering).targets.fileTarget =
      document.page.frontmatter.label.bind Label.identifier? := by
  obtain ⟨targets, counters, htargets⟩ := document.targets_enumerate numbering
  rw [htargets]
  exact document.page.fileTarget_startTargets document.path numbering

theorem contains_enumerate (numbering : Numbering) (document : SourceDocument)
    (identifier : String) :
    (document.enumerate numbering).targets.contains identifier = true ↔
      (document.enumerate numbering).targets.fileTarget = some identifier ∨
        ∃ node ∈ (document.enumerate numbering).content.nodes,
          node.targetIdentifier? = some identifier := by
  let start : Enumeration := { page := document.page.startTargets document.path numbering }
  have hrun := start.visitAll_nodes document.content
  have hcontains := start.contains_visitAll document.content.nodes identifier
  have hstart := document.page.contains_startTargets document.path numbering identifier
  -- the walk leaves every node the identifier it has
  have hidentifiers := start.targetIdentifier?_visitAll document.content.nodes
  rw [hrun, List.map_map] at hidentifiers
  rw [hrun] at hcontains
  have hnodes : (∃ node ∈ document.content.nodes, node.targetIdentifier? = some identifier) ↔
      ∃ node ∈ (document.enumerate numbering).content.nodes,
        node.targetIdentifier? = some identifier := by
    rw [← List.mem_map, ← List.mem_map, ← hidentifiers]
    rfl
  rw [fileTarget_enumerate, ← hstart, ← hnodes]
  exact hcontains

theorem isKeyed_enumerate (numbering : Numbering) (document : SourceDocument) :
    (document.enumerate numbering).targets.IsKeyed :=
  Enumeration.isKeyed_walk (document.page.isKeyed_startTargets document.path numbering)
    document.content

def indexEntry (numbering : Numbering) (document : SourceDocument) : String × IndexedPage :=
  (document.path, { targets := (document.enumerate numbering).targets, page := document.page })

theorem indexOf_eq (numbering : Numbering) (documents : List SourceDocument) :
    indexOf numbering documents = SortedMap.ofList (documents.map (indexEntry numbering)) := by
  unfold indexOf WorkingDocument.index
  rw [ProjectIndex.ofPages_eq, List.map_map, List.map_map]
  refine congrArg SortedMap.ofList (List.map_congr_left (fun document _ => ?_))
  simp only [Function.comp_apply, indexEntry, file_enumerate]
  rfl

theorem paths_indexEntry (numbering : Numbering) (documents : List SourceDocument) :
    (documents.map (indexEntry numbering)).map (·.1) = documents.map (·.path) := by
  rw [List.map_map]
  rfl

variable {numbering : Numbering} {documents : List SourceDocument}

/-- The document that the index has under a path is the one that any map by path has there. -/
theorem exists_document_byPath {file : String} {found : IndexedPage}
    (h : (indexOf numbering documents).get? file = some found) :
    ∃ document ∈ documents, document.path = file ∧
      found = { targets := (document.enumerate numbering).targets, page := document.page } ∧
      ∀ {α : Type} (f : SourceDocument → α), (SortedMap.ofList (documents.map (fun document =>
        (document.path, f document)))).get? file = some (f document) := by
  let byPath := SortedMap.ofList (documents.map (fun document => (document.path, document)))
  have hbyPath {α : Type} (f : SourceDocument → α) : SortedMap.ofList
      (documents.map (fun document => (document.path, f document))) = byPath.map f := by
    rw [SortedMap.map_ofList, List.map_map]
    rfl
  have hindex : indexOf numbering documents = byPath.map (fun document =>
      { targets := (document.enumerate numbering).targets, page := document.page }) := by
    rw [indexOf_eq, ← hbyPath]
    rfl
  rw [hindex, SortedMap.get?_map] at h
  obtain ⟨document, hdocument, hfound⟩ := Option.map_eq_some_iff.1 h
  obtain ⟨listed, hlisted, hentry⟩ := List.mem_map.1 (SortedMap.mem_of_get?_ofList hdocument)
  obtain ⟨hpath, hsame⟩ := Prod.mk.inj hentry
  refine ⟨document, hsame ▸ hlisted, hsame ▸ hpath, hfound.symm, fun f => ?_⟩
  rw [hbyPath, SortedMap.get?_map, hdocument]
  rfl

theorem exists_document_of_get?_indexOf {file : String} {found : IndexedPage}
    (h : (indexOf numbering documents).get? file = some found) :
    ∃ document ∈ documents, document.path = file ∧
      found = { targets := (document.enumerate numbering).targets, page := document.page } ∧
      (WorkingDocument.trees (documents.map (enumerate numbering))).get? file =
        some (document.enumerate numbering).content := by
  obtain ⟨document, hdocument, hpath, hfound, hbyPath⟩ := exists_document_byPath h
  refine ⟨document, hdocument, hpath, hfound, ?_⟩
  unfold WorkingDocument.trees
  rw [List.map_map]
  exact hbyPath (fun document => (document.enumerate numbering).content)

theorem exists_of_get?_indexOf {file : String} {found : IndexedPage}
    (h : (indexOf numbering documents).get? file = some found) :
    ∃ document ∈ documents, document.path = file ∧
      found = { targets := (document.enumerate numbering).targets, page := document.page } := by
  obtain ⟨document, hdocument, hfile, hfound, -⟩ := exists_document_of_get?_indexOf h
  exact ⟨document, hdocument, hfile, hfound⟩

theorem get?_indexOf_of_mem (hpaths : (documents.map (·.path)).Nodup)
    {document : SourceDocument} (hmem : document ∈ documents) :
    (indexOf numbering documents).get? document.path =
      some { targets := (document.enumerate numbering).targets, page := document.page } := by
  rw [indexOf_eq]
  exact SortedMap.get?_ofList_of_mem (paths_indexEntry numbering documents ▸ hpaths)
    (List.mem_map_of_mem (f := indexEntry numbering) hmem)

theorem isKeyed_of_get?_indexOf {file : String} {found : IndexedPage}
    (h : (indexOf numbering documents).get? file = some found) : found.targets.IsKeyed := by
  obtain ⟨document, -, -, rfl⟩ := exists_of_get?_indexOf h
  exact document.isKeyed_enumerate numbering

end SourceDocument

end CrossDoc
