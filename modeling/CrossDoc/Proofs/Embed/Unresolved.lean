import CrossDoc.Proofs.Embed.Filling
import CrossDoc.Proofs.Embed.Settled

/-!
# Embeds whose content is not found

Filling leaves such an embed as it is, but lifting does not ask which embeds were filled. The embed
is still there afterwards, with its source and its children, exactly where it is nothing special to
its parent and there is nothing below it for lifting to take out.
-/

namespace CrossDoc.Embed

open Node Standing

variable {source : RemoteSource} {scope : EmbedScope} {cache : RemoteCache} {tree : Node}

/--
An embed whose content is not found outlasts the filling and lifting of its page, with its source
and its children, just if it is neither the sole embed of a container nor in a caption that is
dropped, its children are settled, and they are not a single container, for that takes the embed's
place. An embed that is a whole page cannot be replaced, but hands its source to such a container.
-/
theorem unresolved_outlasts_iff (source : RemoteSource) (scope : EmbedScope) (books : Books)
    (cache : RemoteCache) (hunmarked : books.tree.Unmarked) (path : Path) (answer : EmbedAnswer)
    (hmem : (path, answer) ∈ contents source scope books.tree cache)
    (hfailed : answer.result = none) (embed : Node) (hat : books.tree.at? path = some embed) :
    (∃ landing node,
        (fillAll books.tree (contents source scope books.tree cache)).liftedPath? path =
          some landing ∧
        (resolveAll source scope books cache).1.books.tree.at? landing = some node ∧
        node.source = embed.source ∧ node.children = embed.children) ↔
      ∃ strip, root.standing? books.tree path = some (plain strip) ∧
        (∀ child ∈ embed.children, child.Settled strip) ∧
        (isSoleContainer embed.children = true →
          path = [] ∧ ∀ child ∈ embed.children, child.source = embed.source) := by
  rw [tree_resolveAll]
  have hclear := clearOf_of_mem_contents hmem
  have hstanding := standing?_fillAll books.tree hclear root
  have hfilled := (at?_fillAll_of_failed hmem hfailed).trans hat
  have hembed := is_embed_of_mem_contents hmem hat
  have hembedded : embed.Unmarked := fun found hfound =>
    hunmarked found (mem_nodes_of_at? hat hfound)
  -- lifting sees the filled tree only through the embed and the way down to it
  generalize fillAll books.tree (contents source scope books.tree cache) = filled at *
  constructor
  · rintro ⟨landing, node, hlanding, hnode, -, hchildren⟩
    obtain ⟨own, found, given, hown, hfound, -, hleft⟩ := at?_liftEmbeds hlanding
    obtain rfl := Option.some.inj (hfilled.symm.trans hfound)
    obtain rfl := Option.some.inj (hleft.symm.trans hnode)
    have hstays : path = [] ∨ own.elides embed = false := by
      obtain ⟨own', found', hown', hfound', hstays⟩ := exists_liftedPath?_iff.1 ⟨landing, hlanding⟩
      obtain rfl := Option.some.inj (hown.symm.trans hown')
      obtain rfl := Option.some.inj (hfilled.symm.trans hfound')
      exact hstays
    have hplain : own = plain own.strip := by
      refine eq_plain ?_
      rcases hstays with rfl | helides
      · exact (Option.some.inj hown).symm ▸ rfl
      · exact role_of_elides_eq_false helides
    rw [hplain] at hchildren hstays
    obtain ⟨hsettled, hsource⟩ := (liftedBelow_eq_children_iff hembed hembedded).1 hchildren
    refine ⟨own.strip, (hstanding.symm.trans hown).trans (congrArg some hplain), hsettled, ?_⟩
    intro hsole
    refine ⟨hstays.resolve_right ?_, hsource hsole⟩
    rw [elides_of_embed hembed (unmarked_iff.1 hembedded).1 hsettled, hsole]
    exact Bool.noConfusion
  · rintro ⟨strip, hown, hsettled, hsole⟩
    have hstays : path = [] ∨ (plain strip).elides embed = false := by
      rw [elides_of_embed hembed (unmarked_iff.1 hembedded).1 hsettled]
      cases hcontainer : isSoleContainer embed.children with
      | true => exact Or.inl (hsole hcontainer).1
      | false => exact Or.inr rfl
    obtain ⟨landing, hlanding⟩ := exists_liftedPath?_iff.2
      ⟨plain strip, embed, hstanding.trans hown, hfilled, hstays⟩
    obtain ⟨own, found, given, hown', hfound, hgiven, hleft⟩ := at?_liftEmbeds hlanding
    obtain rfl := Option.some.inj (hfilled.symm.trans hfound)
    obtain rfl := Option.some.inj ((hstanding.trans hown).symm.trans hown')
    refine ⟨landing, _, hlanding, hleft, ?_, ?_⟩
    · have hnone : given = none := by
        rw [not_container_of_embed hembed] at hgiven
        exact hgiven.resolve_right Bool.false_ne_true
      rw [hnone]
      exact source_marked_of_embed hembed
    · exact (liftedBelow_eq_children_iff hembed hembedded).2
        ⟨hsettled, fun hcontainer => (hsole hcontainer).2⟩

def hollowFigure : Node :=
  .ofType NodeType.root [.ofType NodeType.container
    [{ type := NodeType.embed, source := some { label := some "#missing" } }]]

/-- The figure takes the source of its embed, and the embed is gone. -/
theorem hollowFigure_loses_embed :
    let scope : EmbedScope := { file := "a.md", index := ∅, trees := ∅, projects := [] }
    let books : Books := { tree := hollowFigure, dependencies := [], graph := {} }
    let contents := contents (fun _ => none) scope hollowFigure {}
    contents.map (fun entry => (entry.1, entry.2.result.isSome)) = [([0, 0], false)] ∧
      ¬ ∃ landing node, (fillAll hollowFigure contents).liftedPath? [0, 0] = some landing ∧
        (resolveAll (fun _ => none) scope books {}).1.books.tree.at? landing = some node ∧
        node.source = some { label := some "#missing" } ∧ node.children = [] := by
  intro scope books contents
  have hcontents : contents.map (fun entry => (entry.1, entry.2.result.isSome)) =
      [([0, 0], false)] := by decide +kernel
  refine ⟨hcontents, fun hpresent => ?_⟩
  obtain ⟨⟨path, answer⟩, hmem, hentry⟩ := List.mem_map.1 (hcontents ▸ List.mem_singleton_self _)
  obtain ⟨rfl, hfailed⟩ := Prod.mk.inj hentry
  have hunmarked : hollowFigure.Unmarked := by
    unfold Unmarked
    decide +kernel
  have hstanding : root.standing? hollowFigure [0, 0] =
      some { strip := false, role := .soleEmbed } := by decide +kernel
  obtain ⟨strip, hown, -⟩ := (unresolved_outlasts_iff (fun _ => none) scope books {} hunmarked
    [0, 0] answer hmem (by simpa using hfailed)
    { type := NodeType.embed, source := some { label := some "#missing" } } rfl).1 hpresent
  rw [hstanding] at hown
  exact absurd hown (by simp [plain])

end CrossDoc.Embed
