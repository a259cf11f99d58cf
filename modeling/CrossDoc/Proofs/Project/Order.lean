import CrossDoc.CommandLine.Slug
import CrossDoc.Proofs.DependencyGraph
import CrossDoc.Proofs.Project.Stages

/-!
# The order of the pages

The pages of a project can be given in any order: the index and the content that embeds copy from
are maps by path, every page is finished by itself, and graphs are merged in any order.
-/

namespace CrossDoc

open SourceDocument

variable {numbering : Numbering} {references : List ProjectReference}
  {documents others : List SourceDocument}

namespace SourceDocument

variable [Text.Slugger]

theorem indexOf_perm (hperm : documents.Perm others) (hpaths : (documents.map (·.path)).Nodup) :
    indexOf numbering documents = indexOf numbering others := by
  rw [indexOf_eq, indexOf_eq]
  exact SortedMap.ofList_perm (hperm.map _) (paths_indexEntry numbering documents ▸ hpaths)

theorem linked_perm (hperm : documents.Perm others) (hpaths : (documents.map (·.path)).Nodup)
    (document : SourceDocument) :
    document.linked numbering references documents =
      document.linked numbering references others := by
  unfold linked
  rw [indexOf_perm hperm hpaths]

variable (numbering references) in
theorem trees_scope_perm (hperm : documents.Perm others)
    (hpaths : (documents.map (·.path)).Nodup) (document : SourceDocument) :
    (document.scope numbering references documents).trees =
      (document.scope numbering references others).trees := by
  have hentry : treeEntry numbering references documents =
      treeEntry numbering references others := by
    funext page
    unfold treeEntry
    rw [linked_perm hperm hpaths]
  rw [trees_scope, trees_scope, ← hentry]
  exact SortedMap.ofList_perm (hperm.map _)
    (paths_treeEntry numbering references documents ▸ hpaths)

theorem finished_perm (hperm : documents.Perm others) (hpaths : (documents.map (·.path)).Nodup)
    (answers : RemoteCache.PageAnswers) :
    finished numbering references documents answers =
      finished numbering references others answers := by
  funext document
  have htrees := trees_scope_perm numbering references hperm hpaths document
  change (document.linked numbering references documents).finished
    (indexOf numbering documents) (document.scope numbering references documents).trees _ answers =
    _
  rw [linked_perm hperm hpaths, indexOf_perm hperm hpaths, htrees]
  rfl

end SourceDocument

/--
The order of pages with distinct paths changes nothing but the order of what becomes of them, in a
session in which page urls answer the same.
-/
theorem resolveProject_perm [Text.Slugger] (source source' : RemoteSource) (numbering : Numbering)
    (references : List ProjectReference) (documents others : List SourceDocument)
    (cache cache' : RemoteCache) (hperm : documents.Perm others)
    (hpaths : (documents.map (·.path)).Nodup)
    (hanswers : cache.pageAt source = cache'.pageAt source') :
    let first := (resolveProject source numbering references documents cache).1
    let second := (resolveProject source' numbering references others cache').1
    first.index = second.index ∧ first.graph = second.graph ∧
      first.documents.length = documents.length ∧ second.documents.length = others.length ∧
      ∀ place other : Nat, documents[place]? = others[other]? →
        first.documents[place]? = second.documents[other]? := by
  intro first second
  have hfinished : finished numbering references documents (cache.pageAt source) =
      finished numbering references others (cache'.pageAt source') := by
    rw [hanswers, finished_perm hperm hpaths]
  have hfirst := documents_eq_finished source numbering references documents cache
  have hsecond := documents_eq_finished source' numbering references others cache'
  refine ⟨indexOf_perm hperm hpaths, ?_, ?_, ?_, ?_⟩
  · rw [graph_eq_finished, graph_eq_finished, hfinished]
    exact DependencyGraph.foldl_merge_perm (hperm.map _) {}
  · rw [hfirst, List.length_map]
  · rw [hsecond, List.length_map]
  · intro place other hsame
    rw [hfirst, hsecond, List.getElem?_map, List.getElem?_map, hsame, hfinished]

def SourceDocument.asking : SourceDocument where
  path := "a.md"
  page := { slug := "a", url := "/a" }
  content := .ofType NodeType.root
    [{ type := NodeType.crossReference, identifier := some "shared" },
     { type := NodeType.embed, source := some { label := some "#shared" } }]

def SourceDocument.sharing (path url : String) : SourceDocument where
  path := path
  page := { slug := url, url }
  content := .ofType NodeType.root [{ type := NodeType.heading, identifier := some "shared" }]

/-- Two pages have what the first one asks for, and the same one gives it in either order. -/
theorem resolveProject_reverse_sharing :
    let documents := [asking, sharing "b.md" "/b", sharing "c.md" "/c"]
    let first := (resolveProject (fun _ => none) {} [] documents {}).1
    let second := (resolveProject (fun _ => none) {} [] documents.reverse {}).1
    first.graph = second.graph ∧ first.documents[0]? = second.documents[2]? ∧
      first.graph.dependenciesOf "a.md" = ["b.md"] := by
  intro documents first second
  obtain ⟨-, hgraph, -, -, hdocuments⟩ := resolveProject_perm (fun _ => none) (fun _ => none) {} []
    documents documents.reverse {} {} (List.reverse_perm documents).symm (by decide) rfl
  exact ⟨hgraph, hdocuments 0 2 rfl, by decide +kernel⟩

end CrossDoc
