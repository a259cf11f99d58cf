import CrossDoc.Proofs.DependencyGraph
import CrossDoc.Proofs.Embed.Filling

/-!
# Entering content

Entering the content of an embed fills it, notes its source by url, and adds an edge if it comes
from another page. Sources and edges that are there already are not added again
(`Books.dependencies_enterAll_eq_self`, `Books.graph_enterAll_eq_self`), and it can be told
afterwards which of them came in (`Books.mem_urls_enterAll`, `Books.mem_dependenciesOf_enterAll`).
-/

namespace CrossDoc

theorem Dependency.mem_urls_pushUnique {dependencies : List Dependency} {dependency : Dependency}
    {url : Option String} : url ∈ (pushUnique dependencies dependency).map (·.url) ↔
      url ∈ dependencies.map (·.url) ∨ url = dependency.url := by
  unfold pushUnique
  split
  · rename_i hknown
    obtain ⟨known, hmem, hurl⟩ := List.any_eq_true.1 hknown
    refine ⟨Or.inl, fun h => h.elim id ?_⟩
    rintro rfl
    exact List.mem_map.2 ⟨known, hmem, by simpa using hurl⟩
  · simp

theorem Dependency.pushUnique_eq_self {dependencies : List Dependency} {dependency : Dependency}
    (h : dependency.url ∈ dependencies.map (·.url)) :
    pushUnique dependencies dependency = dependencies := by
  obtain ⟨known, hmem, hurl⟩ := List.mem_map.1 h
  exact if_pos (List.any_eq_true.2 ⟨known, hmem, by simpa using hurl⟩)

namespace Embed

attribute [ext] Books

namespace Books

/--
Whether content found for the embed at a path is entered: filling the embed with it again gives the
embed that is there, once the marks that come with it are out; the source is noted; and the edge is
there if the content comes from another page.
-/
structure Holds (books : Books) (file : String) (path : Path) (embedded : Embedded) : Prop where
  filled : ∃ embed, books.tree.at? path = some embed ∧
    (fillWith embedded embed).liftElided = embed
  noted : embedded.source.url ∈ books.dependencies.map (·.url)
  edge : ∀ owner, embedded.localFile = some owner →
    owner ∈ books.graph.dependenciesOf file

variable {books : Books} {file : String} {answers : List (Path × EmbedAnswer)}

/-- What entering the content of every embed keeps, entering all of it keeps. -/
theorem enterAll_induction {motive : Books → Prop} (h : motive books)
    (henter : ∀ books entry embedded, entry ∈ answers → entry.2.result = some embedded →
      motive books → motive (books.enter file entry.1 embedded)) :
    motive (books.enterAll file answers) := by
  unfold enterAll
  induction answers generalizing books with
  | nil => exact h
  | cons entry rest ih =>
      have hrest := fun books other embedded hmem =>
        henter books other embedded (List.mem_cons_of_mem entry hmem)
      rw [List.foldl_cons]
      cases hresult : entry.2.result with
      | none => exact ih h hrest
      | some embedded => exact ih (henter books entry embedded List.mem_cons_self hresult h) hrest

theorem dependencies_enterAll_eq_self (h : ∀ entry ∈ answers, ∀ embedded,
      entry.2.result = some embedded → embedded.source.url ∈ books.dependencies.map (·.url)) :
    (books.enterAll file answers).dependencies = books.dependencies := by
  refine enterAll_induction (motive := fun entered => entered.dependencies = books.dependencies)
    rfl (fun entered entry embedded hmem hresult hsame => ?_)
  have hnoted := h entry hmem embedded hresult
  rw [← hsame] at hnoted
  exact (Dependency.pushUnique_eq_self hnoted).trans hsame

theorem graph_enterAll_eq_self (h : ∀ entry ∈ answers, ∀ embedded,
      entry.2.result = some embedded → ∀ owner, embedded.localFile = some owner →
        owner ∈ books.graph.dependenciesOf file) :
    (books.enterAll file answers).graph = books.graph := by
  refine enterAll_induction (motive := fun entered => entered.graph = books.graph)
    rfl (fun entered entry embedded hmem hresult hsame => ?_)
  have hedge := h entry hmem embedded hresult
  rw [← hsame] at hedge ⊢
  unfold enter
  cases hlocal : embedded.localFile with
  | none => rfl
  | some owner => exact DependencyGraph.add_eq_self (hedge owner hlocal)

theorem mem_urls_enterAll {url : Option String} :
    url ∈ (books.enterAll file answers).dependencies.map (·.url) ↔
      url ∈ books.dependencies.map (·.url) ∨
        ∃ entry ∈ answers, ∃ embedded, entry.2.result = some embedded ∧
          url = embedded.source.url := by
  induction answers generalizing books with
  | nil => simp [enterAll]
  | cons entry rest ih =>
      unfold enterAll at ih ⊢
      rw [List.foldl_cons, ih]
      cases hresult : entry.2.result with
      | none => simp [hresult]
      | some embedded =>
          simp only [enter, Dependency.mem_urls_pushUnique, List.mem_cons, exists_eq_or_imp,
            hresult, Option.some.injEq, exists_eq_left']
          exact or_assoc

theorem mem_dependenciesOf_enterAll {path found : String} :
    found ∈ (books.enterAll file answers).graph.dependenciesOf path ↔
      found ∈ books.graph.dependenciesOf path ∨
        path = file ∧ ∃ entry ∈ answers, ∃ embedded, entry.2.result = some embedded ∧
          embedded.localFile = some found := by
  induction answers generalizing books with
  | nil => simp [enterAll]
  | cons entry rest ih =>
      unfold enterAll at ih ⊢
      rw [List.foldl_cons, ih]
      cases hresult : entry.2.result with
      | none => simp [hresult]
      | some embedded =>
          cases hlocal : embedded.localFile with
          | none => simp [enter, hresult, hlocal]
          | some owner =>
              simp only [enter, hlocal, DependencyGraph.mem_dependenciesOf_add,
                List.mem_cons, exists_eq_or_imp, hresult, Option.some.injEq, exists_eq_left']
              simp only [eq_comm (a := found)]
              tauto

end Books

end Embed

end CrossDoc
