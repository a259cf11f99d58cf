import CrossDoc.Proofs.DependencyGraph
import CrossDoc.Proofs.Embed.Answers
import CrossDoc.Proofs.External.Reference
import CrossDoc.Proofs.Link.Outcome

/-!
# The stages of a project

What becomes of a page depends on the page itself, on the index, on the content of all pages before
any embed is filled, and on what page urls answer (`WorkingDocument.finished`). The pages of a
project are finished one by one (`documents_eq_finished`), and their edges are put together
(`graph_eq_finished`).
-/

namespace CrossDoc

open RemoteCache

def WorkingDocument.finished (index : ProjectIndex) (trees : SortedMap Node)
    (projects : List LoadedProject) (document : WorkingDocument) (answers : PageAnswers) :
    ResolvedDocument × DependencyGraph :=
  let embeds := Embed.outcome { file := document.path, index, trees, projects }
    { tree := document.content, dependencies := [], graph := {} } answers
  let references := RemoteReference.outcome embeds.books.tree answers
  ({ path := document.path
     content := references.tree
     dependencies := embeds.books.dependencies
     report := (document.report.add embeds.found).add references.found },
    embeds.books.graph)

theorem WorkingDocument.readsPages_finish (source : RemoteSource) (index : ProjectIndex)
    (trees : SortedMap Node) (projects : List LoadedProject) (document : WorkingDocument) :
    ReadsPages source (finish source index trees projects document)
      (finished index trees projects document) := by
  let scope : EmbedScope := { file := document.path, index, trees, projects }
  let books : Embed.Books := { tree := document.content, dependencies := [], graph := {} }
  have hembeds := Embed.readsPages_resolveAll source scope books
  constructor
  · intro cache
    have hreferences := RemoteReference.readsPages_resolve source
      (Embed.resolveAll source scope books cache).1.books.tree
    unfold finish finished
    simp only
    rw [hreferences.result, hembeds.result, hembeds.answers]
  · intro cache
    exact ((RemoteReference.readsPages_resolve source _).answers _).trans (hembeds.answers cache)

namespace SourceDocument

variable [Text.Slugger] (source : RemoteSource) (numbering : Numbering)
  (references : List ProjectReference) (documents : List SourceDocument) (cache : RemoteCache)

def scope (document : SourceDocument) : EmbedScope where
  file := document.path
  index := indexOf numbering documents
  trees := WorkingDocument.trees
    (documents.map (fun document => document.linked numbering references documents))
  projects := ExternalLink.projects references

def treeEntry (document : SourceDocument) : String × Node :=
  (document.path, (document.linked numbering references documents).content)

theorem trees_scope (document : SourceDocument) :
    (document.scope numbering references documents).trees =
      SortedMap.ofList (documents.map (treeEntry numbering references documents)) := by
  unfold scope WorkingDocument.trees
  rw [List.map_map]
  rfl

theorem paths_treeEntry :
    (documents.map (treeEntry numbering references documents)).map (·.1) =
      documents.map (·.path) := by
  rw [List.map_map]
  rfl

/-- A page of a project after all passes, with the edges that it adds. -/
def finished (answers : PageAnswers) (document : SourceDocument) :
    ResolvedDocument × DependencyGraph :=
  let scope := document.scope numbering references documents
  (document.linked numbering references documents).finished scope.index scope.trees scope.projects
    answers

theorem index_resolveProject :
    (resolveProject source numbering references documents cache).1.index =
      indexOf numbering documents := rfl

private theorem linked_eq_map :
    (documents.map (enumerate numbering)).map (WorkingDocument.resolveReferences
        (indexOf numbering documents) (ExternalLink.projects references)) =
      documents.map (fun document => document.linked numbering references documents) := by
  rw [List.map_map]
  rfl

theorem documents_resolveProject :
    (resolveProject source numbering references documents cache).1.documents =
      (RemoteCache.each (WorkingDocument.finish source (indexOf numbering documents)
        (WorkingDocument.trees (documents.map (fun document =>
          document.linked numbering references documents)))
        (ExternalLink.projects references))
        (documents.map (fun document => document.linked numbering references documents))
        cache).1.map (·.1) := by
  rw [← linked_eq_map]
  rfl

theorem graph_resolveProject :
    (resolveProject source numbering references documents cache).1.graph =
      ((RemoteCache.each (WorkingDocument.finish source (indexOf numbering documents)
        (WorkingDocument.trees (documents.map (fun document =>
          document.linked numbering references documents)))
        (ExternalLink.projects references))
        (documents.map (fun document => document.linked numbering references documents))
        cache).1.map (·.2)).foldl DependencyGraph.merge {} := by
  rw [← linked_eq_map, List.foldl_map]
  rfl

/-- Every page is finished by itself, with what page urls answer in the session. -/
private theorem each_finish :
    (RemoteCache.each (WorkingDocument.finish source (indexOf numbering documents)
        (WorkingDocument.trees (documents.map (fun document =>
          document.linked numbering references documents)))
        (ExternalLink.projects references))
        (documents.map (fun document => document.linked numbering references documents))
        cache).1 =
      documents.map (finished numbering references documents (cache.pageAt source)) :=
  ((readsPages_each source (WorkingDocument.readsPages_finish source _ _ _) _).result cache).trans
    (List.map_map ..)

theorem documents_eq_finished :
    (resolveProject source numbering references documents cache).1.documents =
      documents.map (fun document =>
        (document.finished numbering references documents (cache.pageAt source)).1) := by
  rw [documents_resolveProject, each_finish, List.map_map]
  rfl

theorem graph_eq_finished :
    (resolveProject source numbering references documents cache).1.graph =
      (documents.map (fun document =>
        (document.finished numbering references documents (cache.pageAt source)).2)).foldl
        DependencyGraph.merge {} := by
  rw [graph_resolveProject, each_finish, List.map_map]
  rfl

end SourceDocument

end CrossDoc
