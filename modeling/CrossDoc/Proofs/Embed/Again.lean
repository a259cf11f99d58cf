import CrossDoc.CommandLine.Slug
import CrossDoc.Proofs.Embed.Content
import CrossDoc.Proofs.Embed.Entering
import CrossDoc.Target.Enumeration

/-!
# Resolving a page again

Where no page that is copied from holds an embed, filling adds none. So a run that changes nothing
has nothing to lift: it finds every embed with the content that it would fill in, and takes out no
more than the marks that come with that content (`books_resolveAll_eq_self_iff`).

The outcome of a run need not be such a page. Lifting a wrapper may make its container the next one
with a single embed, and an embed whose content is not found gives way to the embeds below it, which
are asked for in the next run only. What a run filled and left in place is not filled with anything
else in the next.
-/

namespace CrossDoc.Embed

open Node Standing

variable {source : RemoteSource} {scope : EmbedScope} {cache : RemoteCache} {books : Books}
  {tree : Node} {embedded : Embedded}

/-! ## Filling again -/

theorem fillWith_fillWith (embedded : Embedded) (embed : Node) :
    fillWith embedded (fillWith embedded embed) = fillWith embedded embed := rfl

theorem fillWith_liftElided (embedded : Embedded) (embed : Node) :
    fillWith embedded embed.liftElided = fillWith embedded embed := by
  rw [liftElided_eq]
  rfl

theorem unmarkedAlong_fillAll {path : Path} {entries : List (Path × EmbedAnswer)}
    (hclear : ClearOf entries path) (h : tree.UnmarkedAlong path) :
    (fillAll tree entries).UnmarkedAlong path :=
  fillAll_induction (motive := fun filled => filled.UnmarkedAlong path) h
    (fun _ _ _ _ hmem hfound halong => halong.modifyAt (fun _ => rfl)
      (hclear _ hmem (Option.isSome_of_eq_some hfound)))

/-- Filling what is as filling would make it changes nothing but marks. -/
theorem liftElided_fillAll_eq_self {entries : List (Path × EmbedAnswer)}
    (hunmarked : tree.UnmarkedBelow) (hclear : ∀ entry ∈ entries, ClearOf entries entry.1)
    (h : ∀ path answer, (path, answer) ∈ entries → ∀ embedded, answer.result = some embedded →
      ∃ embed, tree.at? path = some embed ∧ (fillWith embedded embed).liftElided = embed) :
    (fillAll tree entries).liftElided = tree := by
  -- one embed after the other, each of them in a tree where only filled embeds hold marks
  induction entries using List.reverseRecOn with
  | nil => exact liftElided_of_unmarkedBelow hunmarked
  | append_singleton before entry ih =>
      obtain ⟨path, answer⟩ := entry
      have hbefore : (fillAll tree before).liftElided = tree :=
        ih (fun entry hmem other hother =>
            hclear entry (List.mem_append_left _ hmem) other (List.mem_append_left _ hother))
          (fun path answer hmem => h path answer (List.mem_append_left _ hmem))
      rw [fillAll_append]
      cases hresult : answer.result with
      | none =>
          rw [fillAll_cons_of_none hresult]
          exact hbefore
      | some embedded =>
          obtain ⟨embed, hat, hheld⟩ := h path answer (by simp) embedded hresult
          have hpath : ClearOf before path := fun other hother =>
            hclear (path, answer) (by simp) other (List.mem_append_left _ hother)
          have halong := unmarkedAlong_fillAll hpath (hunmarked.along path)
          rw [fillAll_cons_of_some hresult]
          calc ((fillAll tree before).modifyAt (fillWith embedded) path).liftElided
              = (fillAll tree before).liftElided.modifyAt
                  (fun embed => (fillWith embedded embed).liftElided) path :=
                liftElided_modifyAt (fun _ => rfl)
                  (fun embed => by rw [fillWith_liftElided]) halong
            _ = tree.modifyAt (fun embed => (fillWith embedded embed).liftElided) path := by
                rw [hbefore]
            _ = tree := modifyAt_eq_self _ hat hheld

theorem liftElided_fillAll_eq_self_iff (hunmarked : tree.UnmarkedBelow) :
    (fillAll tree (contents source scope tree cache)).liftElided = tree ↔
      ∀ path answer, (path, answer) ∈ contents source scope tree cache →
        ∀ embedded, answer.result = some embedded →
          ∃ embed, tree.at? path = some embed ∧ (fillWith embedded embed).liftElided = embed := by
  constructor
  · intro h path answer hmem embedded hfound
    have halong := unmarkedAlong_fillAll (clearOf_of_mem_contents hmem) (hunmarked.along path)
    obtain ⟨embed, hat⟩ := exists_at?_of_mem_contents hmem
    have hfilled := at?_liftElided halong
    rw [h, at?_fillAll_of_found hmem hfound, hat] at hfilled
    exact ⟨embed, hat, (Option.some.inj hfilled).symm⟩
  · exact liftElided_fillAll_eq_self hunmarked (fun entry hmem => clearOf_of_mem_contents hmem)

/-! ## Filling with content without embeds -/

theorem embedFree_fillWith {embed : Node} (htarget : embedded.target.EmbedFree)
    (h : embed.EmbedFree) : (fillWith embedded embed).EmbedFree :=
  embedFree_iff.2 ⟨(embedFree_iff.1 h).1, htarget.children_fill embed⟩

theorem sparesEmbeds_fillWith {embed : Node} (htarget : embedded.target.EmbedFree)
    (h : embed.SparesEmbeds) : (fillWith embedded embed).SparesEmbeds :=
  sparesEmbeds_iff.2 ⟨fun hmark => embedFree_fillWith htarget ((sparesEmbeds_iff.1 h).1 hmark),
    fun child hchild => (htarget.children_fill embed child hchild).sparesEmbeds⟩

theorem tally_fillWith_le (htarget : embedded.target.EmbedFree) (embed : Node) :
    tally (· == NodeType.embed) [fillWith embedded embed] ≤
      tally (· == NodeType.embed) [embed] := by
  have hnone : tally (· == NodeType.embed) (fillWith embedded embed).children = 0 :=
    tally_of_embedFree (htarget.children_fill embed)
  rw [tally_singleton, tally_singleton, hnone, type_fillWith, Nat.zero_add]
  exact Nat.le_add_left _ _

variable {entries : List (Path × EmbedAnswer)}

theorem sparesEmbeds_fillAll (hfree : ∀ path answer embedded, (path, answer) ∈ entries →
      answer.result = some embedded → embedded.target.EmbedFree)
    (h : ∀ child ∈ tree.children, child.SparesEmbeds) :
    ∀ child ∈ (fillAll tree entries).children, child.SparesEmbeds := by
  refine fillAll_induction
    (motive := fun filled => ∀ child ∈ filled.children, child.SparesEmbeds) h ?_
  intro filled path answer embedded hmem hfound hspares
  have htarget := hfree path answer embedded hmem hfound
  cases path with
  | nil => exact fun child hchild => (htarget.children_fill filled child hchild).sparesEmbeds
  | cons place rest =>
      exact forall_mem_modify hspares (fun child hchild =>
        hchild.modifyAt (fun _ => embedFree_fillWith htarget)
          (fun _ => sparesEmbeds_fillWith htarget))

theorem tally_fillAll_le (hfree : ∀ path answer embedded, (path, answer) ∈ entries →
      answer.result = some embedded → embedded.target.EmbedFree) :
    tally (· == NodeType.embed) [fillAll tree entries] ≤ tally (· == NodeType.embed) [tree] := by
  refine fillAll_induction (motive := fun filled =>
    tally (· == NodeType.embed) [filled] ≤ tally (· == NodeType.embed) [tree]) (Nat.le_refl _) ?_
  intro filled path answer embedded hmem hfound h
  have hfill := tally_fillWith_le (hfree path answer embedded hmem hfound)
  simp only [tally_eq_count] at h hfill ⊢
  exact (count_modifyAt_le hfill path filled).trans h

/-! ## A run that changes nothing -/

theorem embedFree_of_mem_contents (hcopies : CopiesEmbedFree scope (cache.pageAt source))
    (tree : Node) (path : Path) (answer : EmbedAnswer) (embedded : Embedded)
    (hmem : (path, answer) ∈ contents source scope tree cache)
    (hfound : answer.result = some embedded) : embedded.target.EmbedFree := by
  obtain ⟨label, -, rfl⟩ := mem_contents_iff.1 hmem
  exact embedFree_answer hcopies hfound

theorem tree_resolveAll_eq_self_iff (hcopies : CopiesEmbedFree scope (cache.pageAt source))
    (hunmarked : books.tree.UnmarkedBelow)
    (hmark : books.tree.disposition = .elide → books.tree.is NodeType.embed = true) :
    (resolveAll source scope books cache).1.books.tree = books.tree ↔
      (fillAll books.tree (contents source scope books.tree cache)).IsLifted ∧
        ∀ path answer, (path, answer) ∈ contents source scope books.tree cache →
          ∀ embedded, answer.result = some embedded → ∃ embed,
            books.tree.at? path = some embed ∧ (fillWith embedded embed).liftElided = embed := by
  have hfree := embedFree_of_mem_contents hcopies books.tree
  have htype : (fillAll books.tree (contents source scope books.tree cache)).type =
      books.tree.type := field_fillAll (·.type) (fun _ _ => rfl) _ _
  have hdisposition : (fillAll books.tree (contents source scope books.tree cache)).disposition =
      books.tree.disposition := field_fillAll (·.disposition) (fun _ _ => rfl) _ _
  have hembed : (fillAll books.tree (contents source scope books.tree cache)).disposition = .elide →
      (fillAll books.tree (contents source scope books.tree cache)).is NodeType.embed = true := by
    intro helide
    unfold Attributes.is
    rw [htype]
    exact hmark (hdisposition.symm.trans helide)
  rw [tree_resolveAll, liftEmbeds_eq_iff (sparesEmbeds_fillAll hfree (fun child hchild =>
      (hunmarked child hchild).sparesEmbeds)) hembed hdisposition (tally_fillAll_le hfree),
    liftElided_fillAll_eq_self_iff hunmarked]

/-- A run that changes nothing has nothing to lift, and its page holds all that it finds. -/
theorem books_resolveAll_eq_self_iff (hcopies : CopiesEmbedFree scope (cache.pageAt source))
    (hunmarked : books.tree.UnmarkedBelow)
    (hmark : books.tree.disposition = .elide → books.tree.is NodeType.embed = true) :
    (resolveAll source scope books cache).1.books = books ↔
      (fillAll books.tree (contents source scope books.tree cache)).IsLifted ∧
        ∀ path answer, (path, answer) ∈ contents source scope books.tree cache →
          ∀ embedded, answer.result = some embedded → books.Holds scope.file path embedded := by
  have htree := tree_resolveAll_eq_self_iff hcopies hunmarked hmark
  have hdependencies := dependencies_resolveAll source scope cache books
  have hgraph := graph_resolveAll source scope cache books
  constructor
  · intro hsame
    obtain ⟨hlifted, hfilled⟩ := htree.1 (congrArg Books.tree hsame)
    rw [hsame] at hdependencies hgraph
    refine ⟨hlifted, fun path answer hmem embedded hfound =>
      ⟨hfilled path answer hmem embedded hfound, ?_, fun owner howner => ?_⟩⟩
    · rw [hdependencies]
      exact Books.mem_urls_enterAll.2 (Or.inr ⟨_, hmem, embedded, hfound, rfl⟩)
    · rw [hgraph]
      exact Books.mem_dependenciesOf_enterAll.2 (Or.inr ⟨rfl, _, hmem, embedded, hfound, howner⟩)
  · rintro ⟨hlifted, hholds⟩
    have hfilled := htree.2 ⟨hlifted, fun path answer hmem embedded hfound =>
      (hholds path answer hmem embedded hfound).filled⟩
    rw [Books.dependencies_enterAll_eq_self (fun entry hmem embedded hfound =>
      (hholds entry.1 entry.2 hmem embedded hfound).noted)] at hdependencies
    rw [Books.graph_enterAll_eq_self (fun entry hmem embedded hfound =>
      (hholds entry.1 entry.2 hmem embedded hfound).edge)] at hgraph
    exact Books.ext hfilled hdependencies hgraph

theorem books_resolveAll_of_embedFree (hfree : books.tree.EmbedFree)
    (hunmarked : books.tree.UnmarkedBelow) :
    (resolveAll source scope books cache).1.books = books := by
  have hnone : contents source scope books.tree cache = [] := by
    refine List.eq_nil_iff_forall_not_mem.2 (fun ⟨path, answer⟩ hmem => ?_)
    obtain ⟨embed, hat⟩ := exists_at?_of_mem_contents hmem
    have hembed := is_embed_of_mem_contents hmem hat
    simp [hfree embed (mem_nodes_iff_exists_at?.2 ⟨path, hat⟩)] at hembed
  have hlifted : books.tree.IsLifted := by
    obtain ⟨hself, hbelow⟩ := embedFree_iff.1 hfree
    exact { below := fun child hchild => (hbelow child hchild).settled
            notTaking := fun _ => soleEmbed?_of_embedFree hbelow
            notWrapping := fun hembed => by simp [hself] at hembed }
  have htree : (resolveAll source scope books cache).1.books.tree = books.tree := by
    rw [tree_resolveAll, hnone]
    exact (liftEmbeds_of_isLifted hlifted).trans (liftElided_of_unmarkedBelow hunmarked)
  have hdependencies := dependencies_resolveAll source scope cache books
  have hgraph := graph_resolveAll source scope cache books
  rw [hnone] at hdependencies hgraph
  exact Books.ext htree hdependencies hgraph

/-! ## What the first run leaves -/

/--
Lifting leaves the embed at a path in place with all that it is filled with: the embed is nothing
special to its parent, no caption or legend of its content is dropped, and the content is no single
container.
-/
def KeepsContent (tree : Node) (path : Path) (embedded : Embedded) : Prop :=
  ∃ strip embed, root.standing? tree path = some (plain strip) ∧ tree.at? path = some embed ∧
    (∀ child ∈ (fillWith embedded embed).children, child.Settled strip) ∧
      isSoleContainer (fillWith embedded embed).children = false

theorem exists_landing_of_keepsContent {path : Path} {answer : EmbedAnswer}
    (hunmarked : tree.Unmarked) (hmem : (path, answer) ∈ contents source scope tree cache)
    (hfound : answer.result = some embedded) (h : KeepsContent tree path embedded) :
    ∃ landing embed,
      (fillAll tree (contents source scope tree cache)).liftedPath? path = some landing ∧
        tree.at? path = some embed ∧
          (fillAll tree (contents source scope tree cache)).liftEmbeds.at? landing =
            some (fillWith embedded embed).liftElided := by
  obtain ⟨strip, embed, hstanding, hat, hsettled, hsole⟩ := h
  have hclear := clearOf_of_mem_contents hmem
  have hasked := is_embed_of_mem_contents hmem hat
  have hembed : (fillWith embedded embed).is NodeType.embed = true := hasked
  have hkeep : (fillWith embedded embed).disposition = .keep :=
    hunmarked embed (mem_nodes_iff_exists_at?.2 ⟨path, hat⟩)
  have hstays : (plain strip).elides (fillWith embedded embed) = false :=
    (elides_of_embed hembed hkeep hsettled).trans hsole
  have hstill : (fillWith embedded embed).Settled strip :=
    settled_iff.2 ⟨isStill_of_elides_eq_false (by simp [not_caption_of_embed hembed]) hstays
      (siblings_of_settled hsettled) (taken?_of_embed hembed), hsettled⟩
  have hown := (standing?_fillAll tree hclear root).trans hstanding
  have hfilled := at?_fillAll_of_found hmem hfound
  rw [hat] at hfilled
  obtain ⟨landing, hlanding⟩ := exists_liftedPath?_iff.2
    ⟨plain strip, fillWith embedded embed, hown, hfilled, Or.inr hstays⟩
  obtain ⟨own, found, given, hown', hfound', hgiven, hleft⟩ := at?_liftEmbeds hlanding
  obtain rfl := Option.some.inj (hown.symm.trans hown')
  obtain rfl := Option.some.inj (hfilled.symm.trans hfound')
  obtain rfl : given = none :=
    hgiven.resolve_right (by simp [not_container_of_embed hembed])
  refine ⟨landing, embed, hlanding, hat, hleft.trans (congrArg some ?_)⟩
  rw [← liftElided_mark, mark_of_settled hstill, given_none]

/-- What the first run filled and left in place, the second finds filled. -/
theorem holds_of_keepsContent {path : Path} {answer : EmbedAnswer}
    (hunmarked : books.tree.Unmarked)
    (hmem : (path, answer) ∈ contents source scope books.tree cache)
    (hfound : answer.result = some embedded) (h : KeepsContent books.tree path embedded) :
    ∃ landing,
      (fillAll books.tree (contents source scope books.tree cache)).liftedPath? path =
          some landing ∧
        (resolveAll source scope books cache).1.books.Holds scope.file landing embedded ∧
          ∀ other, (landing, other) ∈ contents source scope
              (resolveAll source scope books cache).1.books.tree
              (resolveAll source scope books cache).2 →
            other.result = some embedded := by
  obtain ⟨landing, embed, hlanding, hat, hleft⟩ :=
    exists_landing_of_keepsContent hunmarked hmem hfound h
  rw [← tree_resolveAll] at hleft
  refine ⟨landing, hlanding, ⟨⟨_, hleft, ?_⟩, ?_, fun owner howner => ?_⟩, fun other hother => ?_⟩
  · rw [fillWith_liftElided, fillWith_fillWith]
  · rw [dependencies_resolveAll]
    exact Books.mem_urls_enterAll.2 (Or.inr ⟨_, hmem, embedded, hfound, rfl⟩)
  · rw [graph_resolveAll]
    exact Books.mem_dependenciesOf_enterAll.2 (Or.inr ⟨rfl, _, hmem, embedded, hfound, howner⟩)
  · obtain ⟨label, hrequest, rfl⟩ := mem_contents_iff.1 hmem
    obtain ⟨again, hagain, rfl⟩ := mem_contents_iff.1 hother
    obtain ⟨-, asked, hasked, hlabel⟩ := mem_requests_iff.1 hrequest
    obtain ⟨-, standing, hstanding, hlabel'⟩ := mem_requests_iff.1 hagain
    obtain rfl := Option.some.inj (hat.symm.trans hasked)
    obtain rfl := Option.some.inj (hleft.symm.trans hstanding)
    rw [toAttributes_liftElided, label?_fillWith (label_of_answer hfound) hlabel] at hlabel'
    obtain rfl := Option.some.inj hlabel'
    rw [(readsPages_resolveAll source scope books).answers]
    exact hfound

/--
Where no page that is copied from holds an embed, a second run changes nothing about a page, its
sources and its edges just if filling the embeds of the page again leaves nothing to lift, and each
embed whose content is found holds that content. The embeds that the first run filled do, where
lifting leaves them in place with all that they were filled with.
-/
theorem resolveAll_again_iff (source : RemoteSource) (scope : EmbedScope) (books : Books)
    (cache : RemoteCache) (hcopies : CopiesEmbedFree scope (cache.pageAt source))
    (hunmarked : books.tree.Unmarked) :
    let first := resolveAll source scope books cache
    let asked := contents source scope books.tree cache
    let again := contents source scope first.1.books.tree first.2
    ((resolveAll source scope first.1.books first.2).1.books = first.1.books ↔
        (fillAll first.1.books.tree again).IsLifted ∧
          ∀ path answer, (path, answer) ∈ again → ∀ embedded, answer.result = some embedded →
            first.1.books.Holds scope.file path embedded) ∧
      ∀ path answer embedded, (path, answer) ∈ asked → answer.result = some embedded →
        KeepsContent books.tree path embedded →
          ∃ landing, (fillAll books.tree asked).liftedPath? path = some landing ∧
            first.1.books.Holds scope.file landing embedded ∧
              ∀ other, (landing, other) ∈ again → other.result = some embedded := by
  intro first asked again
  have hanswers : first.2.pageAt source = cache.pageAt source :=
    (readsPages_resolveAll source scope books).answers cache
  have hkeep : (fillAll books.tree asked).disposition = .keep :=
    (field_fillAll (·.disposition) (fun _ _ => rfl) _ _).trans (unmarked_iff.1 hunmarked).1
  have htree : first.1.books.tree = (fillAll books.tree asked).liftEmbeds := tree_resolveAll books
  refine ⟨books_resolveAll_eq_self_iff (hanswers ▸ hcopies)
    (htree ▸ unmarkedBelow_liftEmbeds _) ?_, fun path answer embedded hmem hfound hkeeps =>
      holds_of_keepsContent hunmarked hmem hfound hkeeps⟩
  rw [htree]
  exact is_embed_of_marked_liftEmbeds hkeep

def gallery : Node :=
  .ofType NodeType.root
    [{ type := NodeType.container, identifier := some "figure"
       children := [.text "picture", .ofType NodeType.caption [.text "inner"]] },
     { type := NodeType.heading, identifier := some "section", children := [.text "title"] }]

def numberedGallery : Node × Enumeration :=
  PageTargets.enumerate { file := "b.md", url := "/b" } gallery

def besideGallery : EmbedScope where
  file := "a.md"
  index := .ofPages [(numberedGallery.2.page, { slug := "b", url := "/b" })]
  trees := .ofList [("b.md", numberedGallery.1)]
  projects := []

theorem copiesEmbedFree_besideGallery :
    CopiesEmbedFree besideGallery (RemoteCache.pageAt (fun _ => none) {}) where
  trees := fun path tree htree => by
    have hmem : (path, tree) ∈ [("b.md", numberedGallery.1)] := SortedMap.mem_of_get?_ofList htree
    have hgallery : tree = numberedGallery.1 := congrArg (·.2) (List.mem_singleton.1 hmem)
    rw [hgallery]
    decide +kernel
  pages := fun url page hpage => by
    have hnone : RemoteCache.pageAt (fun _ => none) {} url = none := rfl
    simp [hnone] at hpage

def copyOf (label : String) : Node :=
  { type := NodeType.embed, source := some { label := some label } }

def framing : Node :=
  .ofType NodeType.root
    [.ofType NodeType.container
      [copyOf "b.md#figure", .ofType NodeType.caption [.text "outer"]], copyOf "b.md#section"]

/-- The first run lifts the figure and leaves the section, which the second run finds filled. -/
theorem framing_stays_again :
    let books : Books := { tree := framing, dependencies := [], graph := {} }
    let first := resolveAll (fun _ => none) besideGallery books {}
    (contents (fun _ => none) besideGallery first.1.books.tree first.2).map (·.1) = [[1]] ∧
      (resolveAll (fun _ => none) besideGallery first.1.books first.2).1.books = first.1.books := by
  intro books first
  have hagain : (contents (fun _ => none) besideGallery first.1.books.tree first.2).map (·.1) =
      [[1]] := by decide +kernel
  have hasked : (contents (fun _ => none) besideGallery framing {}).map
      (fun entry => (entry.1, entry.2.result.isSome)) = [([0, 0], true), ([1], true)] := by
    decide +kernel
  have hsole : ∀ entry ∈ contents (fun _ => none) besideGallery framing {}, entry.1 = [1] →
      ∀ found ∈ entry.2.result,
        isSoleContainer (fillWith found (copyOf "b.md#section")).children = false := by
    decide +kernel
  obtain ⟨hiff, hkeeps⟩ := resolveAll_again_iff (fun _ => none) besideGallery books {}
    copiesEmbedFree_besideGallery (by decide +kernel)
  obtain ⟨⟨path, answer⟩, hmem, hentry⟩ := List.mem_map.1
    (hasked ▸ List.mem_cons_of_mem _ (List.mem_singleton_self ([1], true)))
  obtain ⟨rfl, hsome⟩ := Prod.mk.inj hentry
  obtain ⟨found, hfound⟩ := Option.isSome_iff_exists.1 hsome
  have hfree := embedFree_of_mem_contents copiesEmbedFree_besideGallery framing [1] answer found
    hmem hfound
  obtain ⟨landing, hlanding, hholds, hsame⟩ := hkeeps [1] answer found hmem hfound
    ⟨false, copyOf "b.md#section", by decide +kernel, rfl,
      fun child hchild => (hfree.children_fill (copyOf "b.md#section") child hchild).settled,
      hsole _ hmem rfl found hfound⟩
  have hplace : (fillAll framing
      (contents (fun _ => none) besideGallery framing {})).liftedPath? [1] = some [1] := by
    decide +kernel
  obtain rfl := Option.some.inj (hplace.symm.trans hlanding)
  refine ⟨hagain, ?_⟩
  simp only [first]
  refine hiff.2 ⟨by decide +kernel, fun path again hmem embedded hembedded => ?_⟩
  have hpath : path ∈ [[1]] := hagain ▸ List.mem_map.2 ⟨(path, again), hmem, rfl⟩
  obtain rfl := List.mem_singleton.1 hpath
  obtain rfl := Option.some.inj (hembedded.symm.trans (hsame again hmem))
  exact hholds

/-- A page with a figure that holds a copy of the gallery's figure beside a copy of the section. -/
def crowded : Node :=
  .ofType NodeType.root
    [.ofType NodeType.container [copyOf "b.md#figure", copyOf "b.md#section"]]

/--
Once the first run took the wrapper of the figure out, the section is the only embed of its
container, and the second run takes its wrapper out as well.
-/
theorem crowded_changes_again :
    let books : Books := { tree := crowded, dependencies := [], graph := {} }
    let first := resolveAll (fun _ => none) besideGallery books {}
    let second := resolveAll (fun _ => none) besideGallery first.1.books first.2
    CopiesEmbedFree besideGallery (RemoteCache.pageAt (fun _ => none) {}) ∧ books.tree.Unmarked ∧
      second.1.books.tree ≠ first.1.books.tree := by
  intro books first second
  refine ⟨copiesEmbedFree_besideGallery, by decide +kernel, fun hsame => ?_⟩
  have hembeds : tally (· == NodeType.embed) [second.1.books.tree] ≠
      tally (· == NodeType.embed) [first.1.books.tree] := by decide +kernel
  exact hembeds (congrArg (fun tree => tally (· == NodeType.embed) [tree]) hsame)

end CrossDoc.Embed
