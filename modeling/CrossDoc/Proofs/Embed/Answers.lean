import CrossDoc.Proofs.Embed.Filling
import CrossDoc.Proofs.Text.Pieces

/-!
# What embeds are answered

The answer to an embed depends on its label, on what the page is resolved against and on what page
urls answer, and not on which of them were asked for before (`readsPages_resolve`). So all embeds of
a page can be answered at once (`contents_eq`), and what becomes of them is a function of the tree
and of these answers (`readsPages_resolveAll`).

A label without a project names a target of this one, and it may name the document of the target.
The page that owns the identifier is found in the index, its content among the trees, and the embed
gets what the identifier denotes there, if that is anything (`resolveLocal_eq`,
`exists_owner_of_result`).
-/

namespace CrossDoc.Embed

open RemoteCache

section AllAtOnce

variable (source : RemoteSource) (scope : EmbedScope)

def remoteAnswer (label : String) (answers : PageAnswers) : EmbedAnswer :=
  let answer := (ExternalLink.rule scope.projects).resolve (Node.link label).toAttributes
  match answer.result with
  | .error _ => { found := answer.found }
  | .ok reference =>
    match reference.dataUrl with
    | none => { found := answer.found }
    | some dataUrl =>
      match resolveRemote label reference (answers dataUrl) with
      | .ok embedded => { result := some embedded, found := answer.found }
      | .error diagnostic => { found := answer.found ++ [diagnostic] }

def answer (label : String) (answers : PageAnswers) : EmbedAnswer :=
  if ExternalLink.claims scope.projects label then remoteAnswer scope label answers
  else resolveLocal scope label

theorem readsPages_askRemote (label : String) :
    ReadsPages source (askRemote source scope label) (remoteAnswer scope label) := by
  unfold askRemote remoteAnswer
  cases hlink : ((ExternalLink.rule scope.projects).resolve (Node.link label).toAttributes).result
  with
  | error diagnostic =>
      simp only [hlink]
      exact readsPages_pure source _
  | ok reference =>
      cases hdata : reference.dataUrl with
      | none =>
          simp only [hlink, hdata]
          exact readsPages_pure source _
      | some dataUrl =>
          simp only [hlink, hdata]
          constructor
          · intro cache
            rw [fst_page]
            cases resolveRemote label reference (cache.pageAt source dataUrl) with
            | ok embedded => rfl
            | error diagnostic => rfl
          · intro cache
            have hpage := pageAt_page source dataUrl cache
            cases resolveRemote label reference (cache.page source dataUrl).1 with
            | ok embedded => exact hpage
            | error diagnostic => exact hpage

theorem readsPages_resolve (label : String) :
    ReadsPages source (resolve source scope label) (answer scope label) := by
  unfold resolve answer
  cases ExternalLink.claims scope.projects label with
  | true => exact readsPages_askRemote source scope label
  | false => exact readsPages_pure source _

def answered (tree : Node) (answers : PageAnswers) : List (Path × EmbedAnswer) :=
  (requests tree).map (fun entry => (entry.1, answer scope entry.2 answers))

theorem contents_eq (tree : Node) (cache : RemoteCache) :
    contents source scope tree cache = answered scope tree (cache.pageAt source) := by
  have hanswers := readsPages_each source
    (fun entry : Path × String => readsPages_resolve source scope entry.2) (requests tree)
  unfold contents answered
  rw [hanswers.result, List.zip_map']

variable {source scope} in
theorem mem_contents_iff {tree : Node} {cache : RemoteCache} {path : Path} {found : EmbedAnswer} :
    (path, found) ∈ contents source scope tree cache ↔
      ∃ label, (path, label) ∈ requests tree ∧
        answer scope label (cache.pageAt source) = found := by
  rw [contents_eq]
  simp [answered]

/-- What becomes of the embeds of a page. -/
def outcome (books : Books) (answers : PageAnswers) : Outcome :=
  let answered := answered scope books.tree answers
  let filled := books.enterAll scope.file answered
  { books := { filled with tree := filled.tree.liftEmbeds }
    resolved := answered.countP (fun entry => entry.2.result.isSome)
    found := answered.flatMap (·.2.found) }

theorem tree_outcome (books : Books) (answers : PageAnswers) :
    (outcome scope books answers).books.tree =
      (fillAll books.tree (answered scope books.tree answers)).liftEmbeds := by
  rw [← tree_enterAll books scope.file]
  rfl

theorem readsPages_resolveAll (books : Books) :
    ReadsPages source (resolveAll source scope books) (outcome scope books) := by
  have hanswers := readsPages_each source
    (fun entry : Path × String => readsPages_resolve source scope entry.2) (requests books.tree)
  constructor
  · intro cache
    unfold resolveAll outcome answered
    simp only [hanswers.result, List.zip_map', List.countP_map, List.flatMap_map]
    rfl
  · intro cache
    exact hanswers.answers cache

end AllAtOnce

variable {scope : EmbedScope} {label identifier owner : String} {page : IndexedPage} {tree : Node}

/-! ## What a label names -/

theorem localParts_hash (file target : String) :
    localParts file ("#" ++ target) = (none, target) := by
  have hcut : Text.cut? '#' ("#" ++ target).toList = some ([], target.toList) := by
    rw [String.toList_append]
    rfl
  unfold localParts
  rw [hcut]
  exact congrArg (Prod.mk none) String.ofList_toList

theorem localParts_bare {target : String} (h : '#' ∉ target.toList) (file : String) :
    localParts file target = (none, target) := by
  unfold localParts
  rw [Text.cut?_eq_none_iff.2 h]

/-! ## What is copied -/

/-- Nodes of the page `owner`, as an embed of the page at `scope.file` gets them. -/
def copied (scope : EmbedScope) (label owner : String) (page : IndexedPage) (nodes : List Node) :
    Embedded :=
  let content := Node.ofType NodeType.block nodes
  let isOwn := owner == scope.file
  { target := if isOwn then content else content.anchorTo page.targets.url
    source := page.page.dependency label
    localFile := if isOwn then none else some owner }

theorem target_copied (nodes : List Node) : (copied scope label owner page nodes).target =
    if owner = scope.file then Node.ofType NodeType.block nodes
    else (Node.ofType NodeType.block nodes).anchorTo page.targets.url := by
  unfold copied
  by_cases hown : owner = scope.file
  · simp [hown]
  · simp [hown]

theorem localFile_copied (nodes : List Node) : (copied scope label owner page nodes).localFile =
    if owner = scope.file then none else some owner := by
  unfold copied
  by_cases hown : owner = scope.file
  · simp [hown]
  · simp [hown]

theorem resolveLocal_eq (hidentifier : Label.identifier? (localParts scope.file label).2 =
      some identifier)
    (howner : scope.index.owner? identifier (localParts scope.file label).1 = some (owner, page))
    (htree : scope.trees.get? owner = some tree) :
    resolveLocal scope label =
      match contentOf page.targets identifier tree with
      | [] => unresolved label ("\"" ++ identifier ++ "\" has no content in " ++ owner)
      | nodes => { result := some (copied scope label owner page nodes) } := by
  unfold resolveLocal
  simp only [hidentifier, howner, htree]
  rfl

theorem result_resolveLocal_eq (hidentifier : Label.identifier? (localParts scope.file label).2 =
      some identifier)
    (howner : scope.index.owner? identifier (localParts scope.file label).1 = some (owner, page))
    (htree : scope.trees.get? owner = some tree) :
    (resolveLocal scope label).result =
      if contentOf page.targets identifier tree = [] then none
      else some (copied scope label owner page (contentOf page.targets identifier tree)) := by
  rw [resolveLocal_eq hidentifier howner htree]
  cases contentOf page.targets identifier tree with
  | nil => rfl
  | cons first rest => rfl

theorem exists_owner_of_result {embedded : Embedded}
    (h : (resolveLocal scope label).result = some embedded) :
    ∃ identifier owner page tree,
      Label.identifier? (localParts scope.file label).2 = some identifier ∧
      scope.index.owner? identifier (localParts scope.file label).1 = some (owner, page) ∧
      scope.trees.get? owner = some tree ∧
      contentOf page.targets identifier tree ≠ [] ∧
      embedded = copied scope label owner page (contentOf page.targets identifier tree) := by
  cases hidentifier : Label.identifier? (localParts scope.file label).2 with
  | none =>
      unfold resolveLocal at h
      simp [hidentifier, unresolved] at h
  | some identifier =>
      cases howner : scope.index.owner? identifier (localParts scope.file label).1 with
      | none =>
          unfold resolveLocal at h
          simp [hidentifier, howner, unresolved] at h
      | some entry =>
          obtain ⟨owner, page⟩ := entry
          cases htree : scope.trees.get? owner with
          | none =>
              unfold resolveLocal at h
              simp [hidentifier, howner, htree, unresolved] at h
          | some tree =>
              rw [result_resolveLocal_eq hidentifier howner htree] at h
              by_cases hempty : contentOf page.targets identifier tree = []
              · rw [if_pos hempty] at h
                exact absurd h (by simp)
              · rw [if_neg hempty] at h
                have hsame := Option.some.inj h
                exact ⟨identifier, owner, page, tree, rfl, howner, htree, hempty, hsame.symm⟩

end CrossDoc.Embed
