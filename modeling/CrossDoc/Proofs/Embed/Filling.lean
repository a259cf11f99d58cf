import CrossDoc.Embed.Resolution
import CrossDoc.Proofs.Embed.Trace
import CrossDoc.Proofs.External.Cache
import CrossDoc.Proofs.Node.Changes

/-!
# Filling the embeds of a page

The embeds of a page that are filled stand apart from one another: no path to one leads through
another. Filling gives an embed children and a source and nothing else, so a node that is not below
a filled embed stays where it is with its attributes (`at?_fillAll`) and its standing
(`standing?_fillAll`), and an embed whose content is not found stays as it is
(`at?_fillAll_of_failed`).
-/

namespace CrossDoc.Embed

variable (source : RemoteSource) (scope : EmbedScope) (tree : Node) (cache : RemoteCache)

/-- The embeds of a page, with what is found for each. -/
def contents : List (Path × EmbedAnswer) :=
  ((requests tree).map (·.1)).zip
    (RemoteCache.each (fun entry => resolve source scope entry.2) (requests tree) cache).1

def fillAll (contents : List (Path × EmbedAnswer)) : Node :=
  contents.foldl
    (fun tree entry =>
      match entry.2.result with
      | some embedded => tree.modifyAt (fillWith embedded) entry.1
      | none => tree)
    tree

variable {source scope tree cache}

theorem fillAll_cons_of_some {path : Path} {answer : EmbedAnswer} {embedded : Embedded}
    (h : answer.result = some embedded) (rest : List (Path × EmbedAnswer)) :
    fillAll tree ((path, answer) :: rest) =
      fillAll (tree.modifyAt (fillWith embedded) path) rest := by
  rw [fillAll, List.foldl_cons, h]
  rfl

theorem fillAll_cons_of_none {path : Path} {answer : EmbedAnswer} (h : answer.result = none)
    (rest : List (Path × EmbedAnswer)) :
    fillAll tree ((path, answer) :: rest) = fillAll tree rest := by
  rw [fillAll, List.foldl_cons, h]
  rfl

theorem fillAll_append (contents others : List (Path × EmbedAnswer)) :
    fillAll tree (contents ++ others) = fillAll (fillAll tree contents) others :=
  List.foldl_append

/-- What every filling of an embed keeps, filling all embeds keeps. -/
theorem fillAll_induction {motive : Node → Prop} {contents : List (Path × EmbedAnswer)}
    (h : motive tree) (hfill : ∀ tree path answer embedded, (path, answer) ∈ contents →
      answer.result = some embedded → motive tree →
        motive (tree.modifyAt (fillWith embedded) path)) :
    motive (fillAll tree contents) := by
  induction contents generalizing tree with
  | nil => exact h
  | cons entry rest ih =>
      obtain ⟨path, answer⟩ := entry
      have hrest := fun tree other others embedded hmem =>
        hfill tree other others embedded (List.mem_cons_of_mem (path, answer) hmem)
      cases hresult : answer.result with
      | none =>
          rw [fillAll_cons_of_none hresult]
          exact ih h hrest
      | some embedded =>
          rw [fillAll_cons_of_some hresult]
          exact ih (hfill tree path answer embedded List.mem_cons_self hresult h) hrest

theorem tree_enterAll (books : Books) (file : String) (contents : List (Path × EmbedAnswer)) :
    (books.enterAll file contents).tree = fillAll books.tree contents := by
  induction contents generalizing books with
  | nil => rfl
  | cons entry rest ih =>
      obtain ⟨path, answer⟩ := entry
      unfold Books.enterAll at ih ⊢
      rw [List.foldl_cons, ih]
      cases hresult : answer.result with
      | none => rw [fillAll_cons_of_none hresult]
      | some embedded =>
          rw [fillAll_cons_of_some hresult]
          rfl

/-- What becomes of a page: its embeds are filled, and then the tree is lifted. -/
theorem tree_resolveAll (books : Books) : (resolveAll source scope books cache).1.books.tree =
    (fillAll books.tree (contents source scope books.tree cache)).liftEmbeds := by
  rw [← tree_enterAll books scope.file]
  rfl

variable (source scope cache) in
theorem dependencies_resolveAll (books : Books) :
    (resolveAll source scope books cache).1.books.dependencies =
      (books.enterAll scope.file (contents source scope books.tree cache)).dependencies := rfl

variable (source scope cache) in
theorem graph_resolveAll (books : Books) :
    (resolveAll source scope books cache).1.books.graph =
      (books.enterAll scope.file (contents source scope books.tree cache)).graph := rfl

/-! ## The embeds of a page -/

theorem is_embed_of_label? {attributes : Attributes} {label : String}
    (h : label? attributes = some label) : attributes.is NodeType.embed = true := by
  unfold label? at h
  by_cases hembed : attributes.is NodeType.embed = true
  · exact hembed
  · rw [if_neg hembed] at h
    exact absurd h (by simp)

theorem mem_requests_iff {path : Path} {label : String} : (path, label) ∈ requests tree ↔
    path ∈ tree.collectPaths (fun node => (label? node.toAttributes).isSome) ∧
      ∃ node, tree.at? path = some node ∧ label? node.toAttributes = some label :=
  Node.mem_readAt_iff

theorem paths_requests (tree : Node) : (requests tree).map (·.1) =
    tree.collectPaths (fun node => (label? node.toAttributes).isSome) :=
  Node.paths_readAt (fun _ hlabelled => hlabelled) tree

theorem paths_contents : (contents source scope tree cache).map (·.1) =
    (requests tree).map (·.1) := by
  refine List.map_fst_zip ?_
  rw [RemoteCache.length_each, List.length_map]

theorem mem_requests_of_mem_contents {path : Path} {answer : EmbedAnswer}
    (h : (path, answer) ∈ contents source scope tree cache) :
    ∃ label, (path, label) ∈ requests tree := by
  obtain ⟨⟨path', label⟩, hmem, rfl⟩ := List.mem_map.1 (List.of_mem_zip h).1
  exact ⟨label, hmem⟩

theorem is_embed_of_mem_contents {path : Path} {answer : EmbedAnswer} {embed : Node}
    (h : (path, answer) ∈ contents source scope tree cache)
    (hat : tree.at? path = some embed) : embed.is NodeType.embed = true := by
  obtain ⟨label, hmem⟩ := mem_requests_of_mem_contents h
  obtain ⟨-, node, hnode, hlabel⟩ := mem_requests_iff.1 hmem
  obtain rfl := Option.some.inj (hat.symm.trans hnode)
  exact is_embed_of_label? hlabel

theorem apart_of_mem_contents_of_ne {path other : Path} {answer others : EmbedAnswer}
    (hpath : (path, answer) ∈ contents source scope tree cache)
    (hother : (other, others) ∈ contents source scope tree cache)
    (hne : path ≠ other) : Path.Apart path other := by
  obtain ⟨label, hmem⟩ := mem_requests_of_mem_contents hpath
  obtain ⟨label', hmem'⟩ := mem_requests_of_mem_contents hother
  exact Node.apart_of_mem_collectPaths (mem_requests_iff.1 hmem).1 (mem_requests_iff.1 hmem').1 hne

theorem exists_at?_of_mem_contents {path : Path} {answer : EmbedAnswer}
    (h : (path, answer) ∈ contents source scope tree cache) :
    ∃ embed, tree.at? path = some embed := by
  obtain ⟨label, hmem⟩ := mem_requests_of_mem_contents h
  obtain ⟨-, embed, hat, -⟩ := mem_requests_iff.1 hmem
  exact ⟨embed, hat⟩

/-! ## What filling leaves in place -/

theorem type_fillWith (embedded : Embedded) (embed : Node) :
    (fillWith embedded embed).type = embed.type := rfl

theorem field_fillAll {α : Type} (field : Attributes → α) (hfield : ∀ embedded node,
      field (fillWith embedded node).toAttributes = field node.toAttributes)
    (tree : Node) (contents : List (Path × EmbedAnswer)) :
    field (fillAll tree contents).toAttributes = field tree.toAttributes :=
  fillAll_induction
    (motive := fun filled => field filled.toAttributes = field tree.toAttributes) rfl
    (fun filled path _ embedded _ _ h =>
      (Node.field_modifyAt field (hfield embedded) path filled).trans h)

theorem exists_at?_of_at?_fillAll {path : Path} {contents : List (Path × EmbedAnswer)} {node : Node}
    (h : ∀ entry ∈ contents, entry.2.result.isSome = true → ¬ entry.1 <+: path)
    (hat : (fillAll tree contents).at? path = some node) :
    ∃ before, tree.at? path = some before ∧ node.toAttributes = before.toAttributes := by
  refine fillAll_induction (motive := fun filled => ∀ node, filled.at? path = some node →
    ∃ before, tree.at? path = some before ∧ node.toAttributes = before.toAttributes)
    (fun node hnode => ⟨node, hnode, rfl⟩) ?_ node hat
  intro filled other answer embedded hmem hfound ih node hnode
  have hother := h _ hmem (Option.isSome_of_eq_some hfound)
  rcases Node.at?_modifyAt_cases (fillWith embedded) hnode with
    ⟨-, between, hbetween, hsame⟩ | ⟨below, -, hpath, -⟩
  · obtain ⟨before, hbefore, hsame'⟩ := ih between hbetween
    exact ⟨before, hbefore, hsame.trans hsame'⟩
  · exact absurd ⟨below, hpath.symm⟩ hother

def fillIf (answer : EmbedAnswer) : Node → Node :=
  (answer.result.map fillWith).getD id

theorem fillAll_eq_modifyAll (tree : Node) (contents : List (Path × EmbedAnswer)) :
    fillAll tree contents =
      Node.modifyAll (contents.map (fun entry => (entry.1, fillIf entry.2))) tree := by
  induction contents generalizing tree with
  | nil => rfl
  | cons entry rest ih =>
      obtain ⟨path, answer⟩ := entry
      have hrest := ih (tree.modifyAt (fillIf answer) path)
      cases hresult : answer.result with
      | none =>
          have hsame : fillIf answer = id := by simp [fillIf, hresult]
          rw [hsame, Node.modifyAt_id] at hrest
          rw [fillAll_cons_of_none hresult, hrest, List.map_cons, hsame]
          exact congrArg (Node.modifyAll _) (Node.modifyAt_id path tree).symm
      | some embedded =>
          have hsame : fillIf answer = fillWith embedded := by simp [fillIf, hresult]
          rw [hsame] at hrest
          rw [fillAll_cons_of_some hresult, hrest, List.map_cons, hsame]
          rfl

theorem at?_fillAll_of_mem_contents {path : Path} {answer : EmbedAnswer}
    (hmem : (path, answer) ∈ contents source scope tree cache) :
    (fillAll tree (contents source scope tree cache)).at? path =
      (tree.at? path).map (fillIf answer) := by
  rw [fillAll_eq_modifyAll]
  refine Node.at?_modifyAll_of_mem ?_ (List.mem_map.2 ⟨(path, answer), hmem, rfl⟩)
  rw [List.map_map]
  exact (paths_contents.trans (paths_requests tree)) ▸ Node.pairwise_apart_collectPaths _ tree

theorem at?_fillAll_of_failed {path : Path} {answer : EmbedAnswer}
    (hmem : (path, answer) ∈ contents source scope tree cache) (hfailed : answer.result = none) :
    (fillAll tree (contents source scope tree cache)).at? path = tree.at? path := by
  rw [at?_fillAll_of_mem_contents hmem, fillIf, hfailed]
  exact congrFun Option.map_id _

theorem at?_fillAll_of_found {path : Path} {answer : EmbedAnswer} {embedded : Embedded}
    (hmem : (path, answer) ∈ contents source scope tree cache)
    (hfound : answer.result = some embedded) :
    (fillAll tree (contents source scope tree cache)).at? path =
      (tree.at? path).map (fillWith embedded) := by
  rw [at?_fillAll_of_mem_contents hmem, fillIf, hfound]
  rfl

def ClearOf (contents : List (Path × EmbedAnswer)) (path : Path) : Prop :=
  ∀ entry ∈ contents, entry.2.result.isSome = true → ¬ (entry.1 <+: path ∧ entry.1 ≠ path)

instance (contents : List (Path × EmbedAnswer)) (path : Path) :
    Decidable (ClearOf contents path) :=
  inferInstanceAs (Decidable (∀ entry ∈ contents, entry.2.result.isSome = true →
    ¬ (entry.1 <+: path ∧ entry.1 ≠ path)))

theorem clearOf_of_mem_contents {path : Path} {answer : EmbedAnswer}
    (hmem : (path, answer) ∈ contents source scope tree cache) :
    ClearOf (contents source scope tree cache) path := by
  rintro entry hentry - ⟨habove, hne⟩
  exact (apart_of_mem_contents_of_ne hentry hmem hne).1 habove

/-- A node that is not below a filled embed stays in its place, and keeps all but its source. -/
theorem at?_fillAll {path : Path} {contents : List (Path × EmbedAnswer)} {node : Node}
    (h : ClearOf contents path) (hat : tree.at? path = some node) :
    ∃ filled, (fillAll tree contents).at? path = some filled ∧
      filled.toAttributes = { node.toAttributes with source := filled.source } := by
  refine fillAll_induction (motive := fun tree => ∃ filled, tree.at? path = some filled ∧
    filled.toAttributes = { node.toAttributes with source := filled.source }) ⟨node, hat, rfl⟩ ?_
  rintro tree other answer embedded hmem hfound ⟨filled, hfilled, hkept⟩
  obtain ⟨changed, hchanged, hattributes⟩ := Node.at?_modifyAt_of_not_above (fillWith embedded)
    (h _ hmem (Option.isSome_of_eq_some hfound)) hfilled
  refine ⟨changed, hchanged, ?_⟩
  rcases hattributes with hsame | ⟨-, rfl⟩
  · rw [hsame]
    exact hkept
  · exact congrArg (fun attributes : Attributes =>
      { attributes with source := some embedded.source }) hkept

variable (tree) in
theorem standing?_fillAll {path : Path} {contents : List (Path × EmbedAnswer)}
    (h : ClearOf contents path) (standing : Node.Standing) :
    standing.standing? (fillAll tree contents) path = standing.standing? tree path := by
  refine fillAll_induction (motive := fun filled =>
    standing.standing? filled path = standing.standing? tree path) rfl ?_
  intro filled other answer embedded hmem hfound hsame
  have hother := h _ hmem (Option.isSome_of_eq_some hfound)
  exact (Node.Standing.standing?_modifyAt (type_fillWith embedded) hother).trans hsame

end CrossDoc.Embed
