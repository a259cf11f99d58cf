import CrossDoc.Proofs.Embed.Entering
import CrossDoc.Proofs.Project.Order
import CrossDoc.Proofs.Project.Uncounted

/-!
# Pages that need not be resolved again

Another page is seen only through the index and through embeds that copy from it. An embed reads the
page that owns its identifier and no other (`resolveLocal_withTrees`), and of this either an edge or
a finding is left (`exists_trace_of_owner?`). So a page without such a finding is resolved the same
when the content of a page changes that it does not depend on, as long as the targets of that page
stay (`resolveProject_keeps_document`).
-/

namespace CrossDoc

def Diagnostic.warnsOfEmbed (diagnostic : Diagnostic) : Bool :=
  diagnostic.rule == .embedTargetResolves && diagnostic.severity == .warning

namespace Embed

variable (scope : EmbedScope) (label : String)

def owner? : Option (String × IndexedPage) :=
  (Label.identifier? (localParts scope.file label).2).bind (fun identifier =>
    scope.index.owner? identifier (localParts scope.file label).1)

variable {scope label}

/-- Only the content of the page that a label is looked up in is read. -/
theorem resolveLocal_withTrees {trees : SortedMap Node}
    (h : ∀ owner page, owner? scope label = some (owner, page) →
      trees.get? owner = scope.trees.get? owner) :
    resolveLocal { scope with trees } label = resolveLocal scope label := by
  unfold owner? at h
  unfold resolveLocal
  simp only
  cases hidentifier : Label.identifier? (localParts scope.file label).2 with
  | none => rfl
  | some identifier =>
      simp only
      cases howner : scope.index.owner? identifier (localParts scope.file label).1 with
      | none => rfl
      | some entry =>
          simp only
          rw [h entry.1 entry.2 (by rw [hidentifier]; exact howner)]

theorem exists_trace_of_owner? {owner : String} {page : IndexedPage}
    (howner : owner? scope label = some (owner, page)) (hother : owner ≠ scope.file) :
    (∃ diagnostic ∈ (resolveLocal scope label).found, diagnostic.warnsOfEmbed = true) ∨
      ∃ embedded, (resolveLocal scope label).result = some embedded ∧
        embedded.localFile = some owner := by
  have hwarns (note : String) :
      ∃ diagnostic ∈ (unresolved label note).found, diagnostic.warnsOfEmbed = true :=
    ⟨_, List.mem_singleton_self _, rfl⟩
  obtain ⟨identifier, hidentifier, hindex⟩ := Option.bind_eq_some_iff.1 howner
  unfold resolveLocal
  simp only [hidentifier, hindex]
  cases scope.trees.get? owner with
  | none => exact Or.inl (hwarns _)
  | some tree =>
      simp only
      cases contentOf page.targets identifier tree with
      | nil => exact Or.inl (hwarns _)
      | cons first rest =>
          refine Or.inr ⟨_, rfl, ?_⟩
          simp [hother]

variable {file : String} {trees : SortedMap Node} {answers : RemoteCache.PageAnswers}

/--
An embed without a warning that does not copy from a page is answered the same if the content of
that page changes.
-/
theorem answer_withTrees (hfile : scope.file ≠ file)
    (htrees : ∀ path, path ≠ file → trees.get? path = scope.trees.get? path)
    (hquiet : ∀ diagnostic ∈ (answer scope label answers).found, diagnostic.warnsOfEmbed = false)
    (hclear : ∀ embedded, (answer scope label answers).result = some embedded →
      embedded.localFile ≠ some file) :
    answer { scope with trees } label answers = answer scope label answers := by
  unfold answer at hquiet hclear ⊢
  simp only
  cases hclaims : ExternalLink.claims scope.projects label with
  | true => rfl
  | false =>
      simp only [hclaims, Bool.false_eq_true, if_false] at hquiet hclear ⊢
      refine resolveLocal_withTrees (fun owner page howner => htrees owner ?_)
      rintro rfl
      rcases exists_trace_of_owner? howner (Ne.symm hfile) with
        ⟨diagnostic, hmem, hwarns⟩ | ⟨embedded, hresult, hlocal⟩
      · exact absurd hwarns (by simp [hquiet diagnostic hmem])
      · exact hclear embedded hresult hlocal

variable (scope) in
theorem outcome_withTrees (books : Books) (hfile : scope.file ≠ file)
    (htrees : ∀ path, path ≠ file → trees.get? path = scope.trees.get? path)
    (hquiet : ∀ diagnostic ∈ (outcome scope books answers).found,
      diagnostic.warnsOfEmbed = false)
    (hclear : file ∉ (outcome scope books answers).books.graph.dependenciesOf scope.file) :
    outcome { scope with trees } books answers = outcome scope books answers := by
  have hanswered : answered { scope with trees } books.tree answers =
      answered scope books.tree answers := by
    refine List.map_congr_left (fun entry hmem => Prod.ext rfl ?_)
    have hentry : (entry.1, answer scope entry.2 answers) ∈ answered scope books.tree answers :=
      List.mem_map_of_mem hmem
    refine answer_withTrees hfile htrees (fun diagnostic hfound => ?_)
      (fun embedded hresult hlocal => ?_)
    · exact hquiet diagnostic (List.mem_flatMap.2 ⟨_, hentry, hfound⟩)
    · exact hclear (Books.mem_dependenciesOf_enterAll.2
        (Or.inr ⟨rfl, _, hentry, embedded, hresult, hlocal⟩))
  unfold outcome
  rw [hanswered]

end Embed

theorem WorkingDocument.finished_withTrees {index : ProjectIndex} {trees others : SortedMap Node}
    {projects : List LoadedProject} {document : WorkingDocument}
    {answers : RemoteCache.PageAnswers} {file : String} (hfile : document.path ≠ file)
    (htrees : ∀ path, path ≠ file → others.get? path = trees.get? path)
    (hquiet : ∀ diagnostic ∈ (finished index trees projects document answers).1.report.entries,
      diagnostic.warnsOfEmbed = false)
    (hclear : file ∉
      (finished index trees projects document answers).2.dependenciesOf document.path) :
    finished index others projects document answers =
      finished index trees projects document answers := by
  have houtcome := Embed.outcome_withTrees { file := document.path, index, trees, projects }
    { tree := document.content, dependencies := [], graph := {} } hfile htrees
    (fun diagnostic hfound => hquiet diagnostic (by simp [finished, Report.add, hfound])) hclear
  unfold finished
  simp only at houtcome ⊢
  rw [houtcome]

/-! ## A project with one page changed -/

namespace SourceDocument

def edited (file : String) (content : Node) (document : SourceDocument) : SourceDocument :=
  if document.path = file then { document with content } else document

variable {file : String} {content : Node}

@[simp] theorem path_edited (document : SourceDocument) :
    (document.edited file content).path = document.path := by
  unfold edited
  split
  · rfl
  · rfl

theorem edited_of_ne {document : SourceDocument} (h : document.path ≠ file) :
    document.edited file content = document := if_neg h

variable [Text.Slugger] {numbering : Numbering} {references : List ProjectReference}
  {documents : List SourceDocument}

theorem uncounted_targets_enumerate (document : SourceDocument) :
    (document.enumerate numbering).targets.uncounted =
      { (document.page.startTargets document.path numbering).uncounted with
        targets := (document.enumerate numbering).targets.targets } := by
  obtain ⟨targets, counters, htargets⟩ := document.targets_enumerate numbering
  rw [htargets]
  rfl

theorem uncounted_indexOf (documents : List SourceDocument) :
    (indexOf numbering documents).uncounted = SortedMap.ofList (documents.map (fun document =>
      (document.path, (document.indexEntry numbering).2.uncounted))) := by
  unfold ProjectIndex.uncounted
  rw [indexOf_eq, SortedMap.map_ofList, List.map_map]
  rfl

theorem uncounted_indexOf_edited
    (htargets : ∀ document ∈ documents,
      ((document.edited file content).enumerate numbering).targets.targets =
        (document.enumerate numbering).targets.targets) :
    (indexOf numbering (documents.map (edited file content))).uncounted =
      (indexOf numbering documents).uncounted := by
  rw [uncounted_indexOf, uncounted_indexOf, List.map_map]
  refine congrArg SortedMap.ofList (List.map_congr_left (fun document hmem => ?_))
  have hpage : (document.edited file content).page = document.page := by
    unfold edited
    split
    · rfl
    · rfl
  have hentry : ((document.edited file content).indexEntry numbering).2.uncounted =
      (document.indexEntry numbering).2.uncounted := by
    unfold indexEntry IndexedPage.uncounted
    simp only [uncounted_targets_enumerate, htargets document hmem, hpage, path_edited]
  rw [Function.comp_apply, hentry, path_edited]

theorem linked_edited
    (htargets : ∀ document ∈ documents,
      ((document.edited file content).enumerate numbering).targets.targets =
        (document.enumerate numbering).targets.targets) (document : SourceDocument) :
    document.linked numbering references (documents.map (edited file content)) =
      document.linked numbering references documents := by
  unfold linked
  rw [← WorkingDocument.resolveReferences_uncounted, uncounted_indexOf_edited htargets,
    WorkingDocument.resolveReferences_uncounted]

variable (references) in
theorem get?_trees_edited
    (htargets : ∀ document ∈ documents,
      ((document.edited file content).enumerate numbering).targets.targets =
        (document.enumerate numbering).targets.targets)
    (document : SourceDocument) {path : String} (hpath : path ≠ file) :
    (document.scope numbering references (documents.map (edited file content))).trees.get? path =
      (document.scope numbering references documents).trees.get? path := by
  rw [trees_scope, trees_scope, List.map_map]
  refine SortedMap.get?_ofList_congr (fun page _ => path_edited page) (fun page _ hpage => ?_)
  have hunchanged : page.edited file content = page := edited_of_ne (fun h => hpath (hpage ▸ h))
  rw [Function.comp_apply, hunchanged]
  exact congrArg (·.content) (linked_edited htargets page)

theorem finished_edited
    (htargets : ∀ document ∈ documents,
      ((document.edited file content).enumerate numbering).targets.targets =
        (document.enumerate numbering).targets.targets)
    {document : SourceDocument} {answers : RemoteCache.PageAnswers} (hfile : document.path ≠ file)
    (hquiet : ∀ diagnostic ∈
      (document.finished numbering references documents answers).1.report.entries,
      diagnostic.warnsOfEmbed = false)
    (hclear : file ∉
      (document.finished numbering references documents answers).2.dependenciesOf document.path) :
    document.finished numbering references (documents.map (edited file content)) answers =
      document.finished numbering references documents answers := by
  have htrees (path : String) (hpath : path ≠ file) :=
    get?_trees_edited references htargets document hpath
  calc document.finished numbering references (documents.map (edited file content)) answers
    _ = (document.linked numbering references documents).finished
          (indexOf numbering (documents.map (edited file content))).uncounted
          (document.scope numbering references (documents.map (edited file content))).trees
          (ExternalLink.projects references) answers := by
        rw [WorkingDocument.finished_uncounted, ← linked_edited htargets]
        rfl
    _ = (document.linked numbering references documents).finished (indexOf numbering documents)
          (document.scope numbering references (documents.map (edited file content))).trees
          (ExternalLink.projects references) answers := by
        rw [uncounted_indexOf_edited htargets, WorkingDocument.finished_uncounted]
    _ = document.finished numbering references documents answers :=
        WorkingDocument.finished_withTrees hfile htrees hquiet hclear

end SourceDocument

open SourceDocument

/--
A page is resolved the same after the content of another page changed, whose targets stay, if it
does not depend on that page and none of its embeds was reported; in a session in which page urls
answer the same.
-/
theorem resolveProject_keeps_document [Text.Slugger] (source source' : RemoteSource)
    (numbering : Numbering) (references : List ProjectReference) (documents : List SourceDocument)
    (cache cache' : RemoteCache) (file : String) (content : Node)
    (hanswers : cache.pageAt source = cache'.pageAt source')
    (htargets : ∀ document ∈ documents,
      ((document.edited file content).enumerate numbering).targets.targets =
        (document.enumerate numbering).targets.targets) :
    let first := (resolveProject source numbering references documents cache).1
    let second := (resolveProject source' numbering references
      (documents.map (edited file content)) cache').1
    ∀ (place : Nat) (document : SourceDocument), documents[place]? = some document →
      document.path ≠ file → ∃ resolved, first.documents[place]? = some resolved ∧
        ((∀ diagnostic ∈ resolved.report.entries, diagnostic.warnsOfEmbed = false) →
          file ∉ first.graph.dependenciesOf document.path →
          second.documents[place]? = some resolved) := by
  intro first second place document hdocument hfile
  have hfirst := documents_eq_finished source numbering references documents cache
  have hsecond := documents_eq_finished source' numbering references
    (documents.map (edited file content)) cache'
  refine ⟨_, by rw [hfirst, List.getElem?_map, hdocument]; rfl, fun hquiet hindependent => ?_⟩
  have hclear : file ∉ (document.finished numbering references documents
      (cache.pageAt source)).2.dependenciesOf document.path := by
    intro hmem
    refine hindependent ?_
    rw [graph_eq_finished, DependencyGraph.mem_dependenciesOf_foldl_merge]
    exact Or.inr ⟨_, List.mem_map_of_mem (List.mem_of_getElem? hdocument), hmem⟩
  have hfinished := finished_edited htargets hfile hquiet hclear
  rw [hsecond, List.getElem?_map, List.getElem?_map, hdocument, ← hanswers, Option.map_some,
    Option.map_some, edited_of_ne hfile, hfinished]

/-- The page that copies from `b.md` is not resolved anew for what is written below `c.md`. -/
theorem asking_keeps_without_changed :
    let documents := [asking, sharing "b.md" "/b", sharing "c.md" "/c"]
    let changed := (sharing "c.md" "/c").content.children ++ [.text "more"]
    let first := (resolveProject (fun _ => none) {} [] documents {}).1
    let second := (resolveProject (fun _ => none) {} []
      (documents.map (edited "c.md" (.ofType NodeType.root changed))) {}).1
    ∃ resolved, first.documents[0]? = some resolved ∧ second.documents[0]? = some resolved := by
  intro documents changed first second
  obtain ⟨resolved, hresolved, hkeeps⟩ := resolveProject_keeps_document (fun _ => none)
    (fun _ => none) {} [] documents {} {} "c.md" (.ofType NodeType.root changed) rfl
    (by decide +kernel) 0 asking rfl (by decide)
  have hquiet : (first.documents[0]?).all (fun resolved =>
      resolved.report.entries.all (fun diagnostic => !diagnostic.warnsOfEmbed)) = true := by
    decide +kernel
  rw [hresolved, Option.all_some, List.all_eq_true] at hquiet
  exact ⟨resolved, hresolved,
    hkeeps (fun diagnostic hmem => by simpa using hquiet diagnostic hmem) (by decide +kernel)⟩

end CrossDoc
