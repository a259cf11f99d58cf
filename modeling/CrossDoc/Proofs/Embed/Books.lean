import CrossDoc.CommandLine.Slug
import CrossDoc.Proofs.Embed.Entering
import CrossDoc.Proofs.Embed.Fate

/-!
# The books of a page

Resolving the embeds of a page leaves a tree, a number, dependencies, edges and findings, and all of
them tell of the same embeds. It is the outermost embeds with a label that are asked for. Those
whose content is found are filled, counted, and entered with their source and the page they come
from; each of the others stays as it is, with a finding on its label (`keepsBooks_resolveAll`).
-/

namespace CrossDoc

namespace Dependency

/-- The first source of each url that is not known yet. -/
def fresh (known sources : List Dependency) : List Dependency :=
  (sources.filter (fun source => source.url ∉ known.map (·.url))).eraseDupsBy
    (fun source other => source.url == other.url)

theorem pushUnique_of_notMem {dependencies : List Dependency} {dependency : Dependency}
    (h : dependency.url ∉ dependencies.map (·.url)) :
    pushUnique dependencies dependency = dependencies ++ [dependency] := by
  refine if_neg (fun hknown => h ?_)
  obtain ⟨known, hmem, hurl⟩ := List.any_eq_true.1 hknown
  exact List.mem_map.2 ⟨known, hmem, by simpa using hurl⟩

theorem nodup_urls_pushUnique {dependencies : List Dependency}
    (h : (dependencies.map (·.url)).Nodup) (dependency : Dependency) :
    ((pushUnique dependencies dependency).map (·.url)).Nodup := by
  by_cases hknown : dependency.url ∈ dependencies.map (·.url)
  · rw [pushUnique_eq_self hknown]
    exact h
  · rw [pushUnique_of_notMem hknown, List.map_append, List.map_singleton, ← List.concat_eq_append]
    exact List.Nodup.concat hknown h

theorem foldl_pushUnique (known sources : List Dependency) :
    sources.foldl pushUnique known = known ++ fresh known sources := by
  induction sources generalizing known with
  | nil => simp [fresh]
  | cons source rest ih =>
      rw [List.foldl_cons, ih]
      by_cases hknown : source.url ∈ known.map (·.url)
      · rw [pushUnique_eq_self hknown]
        unfold fresh
        rw [List.filter_cons_of_neg (by simpa using hknown)]
      · rw [pushUnique_of_notMem hknown]
        unfold fresh
        rw [List.filter_cons_of_pos (by simpa using hknown), List.eraseDupsBy_cons,
          List.filter_filter, List.append_assoc, List.singleton_append]
        congr 4
        funext other
        by_cases hsame : other.url = source.url
        · simp [hsame]
        · simp [hsame]

end Dependency

namespace Embed

def isLabelled (node : Node) : Bool := (label? node.toAttributes).isSome

/-- The sources of the content that was found, in the order of the answers. -/
def sources (answered : List (Path × EmbedAnswer)) : List Dependency :=
  answered.filterMap (fun entry => entry.2.result.map (·.source))

/-- An embed with a label copies from a page of this project. -/
def CopiesFrom (scope : EmbedScope) (label owner : String) : Prop :=
  ExternalLink.claims scope.projects label = false ∧ ∃ identifier page tree,
    Label.identifier? (localParts scope.file label).2 = some identifier ∧
    scope.index.owner? identifier (localParts scope.file label).1 = some (owner, page) ∧
    scope.trees.get? owner = some tree ∧ contentOf page.targets identifier tree ≠ []

/--
What resolving the embeds of a page makes of its books. `answered` are the embeds that are asked
for, each with its answer.
-/
structure KeepsBooks (scope : EmbedScope) (books : Books) (answers : RemoteCache.PageAnswers)
    (answered : List (Path × EmbedAnswer)) (outcome : Outcome) : Prop where
  asked : ∀ path, path ∈ answered.map (·.1) ↔ books.tree.IsOutermost isLabelled path
  ordered : (answered.map (·.1)).Pairwise (· < ·)
  tree : outcome.books.tree = (fillAll books.tree answered).liftEmbeds
  settled : ∀ path found, (path, found) ∈ answered → ∃ embed label,
    books.tree.at? path = some embed ∧ label? embed.toAttributes = some label ∧
    found = answer scope label answers ∧
    ((∃ embedded, found.result = some embedded ∧
        (fillAll books.tree answered).at? path = some (fillWith embedded embed)) ∨
      found.result = none ∧ (fillAll books.tree answered).at? path = some embed ∧
        ∃ diagnostic ∈ outcome.found, diagnostic.RaisedFor label)
  count : outcome.resolved = answered.countP (fun entry => entry.2.result.isSome)
  dependencies : outcome.books.dependencies =
    books.dependencies ++ Dependency.fresh books.dependencies (sources answered)
  distinct : (outcome.books.dependencies.map (·.url)).Nodup
  edges : ∀ path owner, owner ∈ outcome.books.graph.dependenciesOf path ↔
    owner ∈ books.graph.dependenciesOf path ∨ path = scope.file ∧ owner ≠ scope.file ∧
      ∃ request ∈ requests books.tree, CopiesFrom scope request.2 owner
  /-- The books are as if only the embeds whose content is found had been entered. -/
  failures : books.enterAll scope.file (answered.filter (fun entry => entry.2.result.isSome)) =
    { outcome.books with tree := fillAll books.tree answered }

variable {source : RemoteSource} {scope : EmbedScope} {cache : RemoteCache}
  {answers : RemoteCache.PageAnswers} {label owner : String} {embedded : Embedded}

/-! ## Where content comes from -/

theorem exists_localFile_iff :
    (∃ embedded, (answer scope label answers).result = some embedded ∧
      embedded.localFile = some owner) ↔ owner ≠ scope.file ∧ CopiesFrom scope label owner := by
  unfold answer CopiesFrom
  cases hclaims : ExternalLink.claims scope.projects label with
  | true =>
      simp only [if_true, Bool.true_eq_false, false_and, and_false, iff_false]
      rintro ⟨embedded, hresult, hlocal⟩
      obtain ⟨reference, dataUrl, page, nodes, -, -, -, -, rfl⟩ :=
        exists_rebased_of_remoteAnswer hresult
      exact absurd hlocal (Option.some_ne_none owner).symm
  | false =>
      simp only [Bool.false_eq_true, if_false, true_and]
      constructor
      · rintro ⟨embedded, hresult, hlocal⟩
        obtain ⟨identifier, found, page, tree, hidentifier, howner, htree, hne, hcopied⟩ :=
          exists_owner_of_result hresult
        rw [hcopied, localFile_copied] at hlocal
        split at hlocal
        · exact absurd hlocal (by simp)
        · rename_i hother
          obtain rfl := Option.some.inj hlocal
          exact ⟨hother, identifier, page, tree, hidentifier, howner, htree, hne⟩
      · rintro ⟨hother, identifier, page, tree, hidentifier, howner, htree, hne⟩
        refine ⟨_, (result_resolveLocal_eq hidentifier howner htree).trans (if_neg hne), ?_⟩
        rw [localFile_copied, if_neg hother]

/-! ## What is entered -/

namespace Books

variable {books : Books} {file : String}

theorem dependencies_enterAll (answered : List (Path × EmbedAnswer)) :
    (books.enterAll file answered).dependencies =
      (sources answered).foldl Dependency.pushUnique books.dependencies := by
  induction answered generalizing books with
  | nil => rfl
  | cons entry rest ih =>
      unfold enterAll sources at ih ⊢
      rw [List.foldl_cons, ih]
      cases hresult : entry.2.result with
      | none => simp [hresult]
      | some embedded => simp [hresult, enter]

theorem nodup_urls_enterAll (h : (books.dependencies.map (·.url)).Nodup)
    (answered : List (Path × EmbedAnswer)) :
    ((books.enterAll file answered).dependencies.map (·.url)).Nodup :=
  enterAll_induction (motive := fun entered => (entered.dependencies.map (·.url)).Nodup) h
    (fun _ _ embedded _ _ hdistinct => Dependency.nodup_urls_pushUnique hdistinct embedded.source)

theorem enterAll_filter (answered : List (Path × EmbedAnswer)) :
    books.enterAll file (answered.filter (fun entry => entry.2.result.isSome)) =
      books.enterAll file answered := by
  induction answered generalizing books with
  | nil => rfl
  | cons entry rest ih =>
      unfold enterAll at ih ⊢
      rw [List.foldl_cons]
      cases hresult : entry.2.result with
      | none => rw [List.filter_cons_of_neg (by simp [hresult]), ih]
      | some embedded =>
          rw [List.filter_cons_of_pos (by simp [hresult]), List.foldl_cons, hresult, ih]

end Books

/-! ## The embeds of a page -/

theorem settled_of_mem_contents {tree : Node} {path : Path} {found : EmbedAnswer}
    (hmem : (path, found) ∈ contents source scope tree cache) :
    ∃ embed label, tree.at? path = some embed ∧ label? embed.toAttributes = some label ∧
      found = answer scope label (cache.pageAt source) ∧
      ((∃ embedded, found.result = some embedded ∧
          (fillAll tree (contents source scope tree cache)).at? path =
            some (fillWith embedded embed)) ∨
        found.result = none ∧
          (fillAll tree (contents source scope tree cache)).at? path = some embed ∧
          ∃ diagnostic ∈ (contents source scope tree cache).flatMap (·.2.found),
            diagnostic.RaisedFor label) := by
  obtain ⟨label, hrequest, hanswer⟩ := mem_contents_iff.1 hmem
  obtain ⟨-, embed, hembed, hlabel⟩ := mem_requests_iff.1 hrequest
  refine ⟨embed, label, hembed, hlabel, hanswer.symm, ?_⟩
  cases hresult : found.result with
  | some embedded =>
      have hfilled := at?_fillAll_of_found hmem hresult
      rw [hembed] at hfilled
      exact Or.inl ⟨embedded, rfl, hfilled⟩
  | none =>
      have hkept := (at?_fillAll_of_failed hmem hresult).trans hembed
      obtain ⟨diagnostic, hfound, hraised⟩ := exists_finding_of_answer (hanswer ▸ hresult)
      rw [hanswer] at hfound
      exact Or.inr ⟨rfl, hkept, diagnostic, List.mem_flatMap.2 ⟨_, hmem, hfound⟩, hraised⟩

theorem mem_edges_resolveAll_iff {books : Books} {path : String} :
    owner ∈ (resolveAll source scope books cache).1.books.graph.dependenciesOf path ↔
      owner ∈ books.graph.dependenciesOf path ∨ path = scope.file ∧ owner ≠ scope.file ∧
        ∃ request ∈ requests books.tree, CopiesFrom scope request.2 owner := by
  have hcopied : (∃ entry ∈ contents source scope books.tree cache, ∃ embedded,
        entry.2.result = some embedded ∧ embedded.localFile = some owner) ↔
      owner ≠ scope.file ∧ ∃ request ∈ requests books.tree, CopiesFrom scope request.2 owner := by
    simp only [contents_eq, answered, List.mem_map, exists_exists_and_eq_and, exists_localFile_iff]
    tauto
  rw [graph_resolveAll, Books.mem_dependenciesOf_enterAll, hcopied]

/--
Resolving the embeds of a page keeps its books, if no two of its dependencies have the same url
before.
-/
theorem keepsBooks_resolveAll (source : RemoteSource) (scope : EmbedScope) (cache : RemoteCache)
    {books : Books} (h : (books.dependencies.map (·.url)).Nodup) :
    KeepsBooks scope books (cache.pageAt source)
      (answered scope books.tree (cache.pageAt source))
      (resolveAll source scope books cache).1 := by
  have hresult := (readsPages_resolveAll source scope books).result cache
  have htree : (books.enterAll scope.file (contents source scope books.tree cache)).tree =
      fillAll books.tree (contents source scope books.tree cache) := tree_enterAll books _ _
  rw [← contents_eq source scope books.tree cache]
  constructor
  case asked =>
    intro path
    rw [paths_contents, paths_requests]
    exact Node.mem_collectPaths_iff
  case ordered =>
    rw [paths_contents, paths_requests]
    exact Node.pairwise_collectPaths _ books.tree
  case tree => exact tree_resolveAll books
  case settled =>
    intro path found hmem
    rw [hresult, outcome, ← contents_eq source scope books.tree cache]
    exact settled_of_mem_contents hmem
  case count => rw [hresult, outcome, contents_eq]
  case dependencies =>
    rw [dependencies_resolveAll, Books.dependencies_enterAll, Dependency.foldl_pushUnique]
  case distinct => exact Books.nodup_urls_enterAll h _
  case edges => exact fun path owner => mem_edges_resolveAll_iff
  case failures =>
    rw [Books.enterAll_filter]
    exact Books.ext htree rfl rfl

def citedPage : SourceDocument where
  path := "a.md"
  page := { slug := "a", url := "/a" }
  content := .ofType NodeType.root
    [{ type := "paragraph", identifier := some "shared", children := [.text "of a"] }]

def citingScope : EmbedScope where
  file := "b.md"
  index := SourceDocument.indexOf {} [citedPage]
  trees := WorkingDocument.trees [citedPage.enumerate {}]
  projects := []

def citingBooks : Books where
  tree := .ofType NodeType.root (["#shared", "#missing", "#shared"].map (fun label =>
    { type := NodeType.embed, source := some { label := some label } }))
  dependencies := [{ url := some "/b" }]
  graph := {}

/-- The target is counted twice, noted once, and there is one edge for it. -/
theorem citing_keeps_books :
    let outcome := (resolveAll (fun _ => none) citingScope citingBooks {}).1
    KeepsBooks citingScope citingBooks (RemoteCache.pageAt (fun _ => none) {})
        (answered citingScope citingBooks.tree (RemoteCache.pageAt (fun _ => none) {})) outcome ∧
      outcome.resolved = 2 ∧ outcome.books.dependencies.map (·.url) = [some "/b", some "/a"] ∧
      outcome.books.graph.dependenciesOf "b.md" = ["a.md"] :=
  ⟨keepsBooks_resolveAll (fun _ => none) citingScope {} (by decide), by decide +kernel,
    by decide +kernel, by decide +kernel⟩

end Embed

end CrossDoc
