import CrossDoc.External.Reference
import CrossDoc.Proofs.External.Cache
import CrossDoc.Proofs.Node.Path

/-!
# Text for references to remote pages

A reference is given text only where it has none, so every node stays where it is. Apart from text
it may be given a number, and nothing else. What it is given depends on what page urls answer, and
not on which of them were asked for before.
-/

namespace CrossDoc.RemoteReference

theorem children_apply (update : Update) {node : Node} (h : node.children ≠ []) :
    (update.apply node).children = node.children := by
  simp [Update.apply, h]

theorem at?_applyAll {answers : List (Path × Except Diagnostic Update)} {path : Path}
    {tree node : Node} (h : tree.at? path = some node) :
    ∃ changed, (applyAll tree answers).at? path = some changed ∧
      changed.toAttributes = { node.toAttributes with enumerator := changed.enumerator } := by
  induction answers generalizing tree node with
  | nil => exact ⟨node, h, rfl⟩
  | cons entry rest ih =>
      obtain ⟨other, answer⟩ := entry
      cases answer with
      | error diagnostic => exact ih h
      | ok update =>
          obtain ⟨changed, hchanged, hattributes⟩ := Node.at?_modifyAt_of_keeps update.apply
            other (fun _ => children_apply update) h
          obtain ⟨found, hfound, hkept⟩ := ih hchanged
          refine ⟨found, hfound, ?_⟩
          rw [hkept]
          rcases hattributes with hsame | hsame
          · rw [hsame]
          · rw [hsame]
            rfl

theorem at?_resolve (source : RemoteSource) (cache : RemoteCache) {path : Path}
    {tree node : Node} (h : tree.at? path = some node) :
    ∃ changed, (resolve source tree cache).1.tree.at? path = some changed ∧
      changed.toAttributes = { node.toAttributes with enumerator := changed.enumerator } :=
  at?_applyAll h

/-! ## Where a node comes from -/

theorem exists_origin_of_at?_apply {update : Update} {path other : Path} {tree found : Node}
    (h : (tree.modifyAt update.apply other).at? path = some found) :
    (∃ node, tree.at? path = some node ∧
        found.toAttributes = { node.toAttributes with enumerator := found.enumerator }) ∨
      other <+: path ∧ ∃ child ∈ update.children, found ∈ child.nodes := by
  rcases Node.at?_modifyAt_cases update.apply h with
    ⟨-, node, hnode, hsame⟩ | ⟨below, reference, hpath, hreference, hbelow⟩
  · exact Or.inl ⟨node, hnode, by rw [hsame]⟩
  · have happend : tree.at? path = reference.at? below := by
      rw [hpath, Node.at?_append, hreference, Option.bind_some]
    cases below with
    | nil =>
        have hfound := Option.some.inj hbelow
        refine Or.inl ⟨reference, happend, ?_⟩
        rw [← hfound]
        rfl
    | cons place rest =>
        by_cases hchildren : reference.children = []
        · obtain ⟨child, hchild, hrest⟩ := Node.at?_cons_eq_some_iff.1 hbelow
          have hupdate : (update.apply reference).children = update.children := by
            simp [Update.apply, hchildren]
          rw [hupdate] at hchild
          have hmem : found ∈ child.nodes := Node.mem_nodes_iff_exists_at?.2 ⟨rest, hrest⟩
          exact Or.inr ⟨⟨place :: rest, hpath.symm⟩, child, List.mem_of_getElem? hchild, hmem⟩
        · rw [Node.at?_cons, children_apply update hchildren, ← Node.at?_cons] at hbelow
          exact Or.inl ⟨found, happend.trans hbelow, rfl⟩

theorem exists_origin_of_at?_applyAll {answers : List (Path × Except Diagnostic Update)}
    {path : Path} {tree found : Node} (h : (applyAll tree answers).at? path = some found) :
    (∃ node, tree.at? path = some node ∧
        found.toAttributes = { node.toAttributes with enumerator := found.enumerator }) ∨
      ∃ other update, (other, .ok update) ∈ answers ∧ other <+: path ∧
        ∃ child ∈ update.children, ∃ node ∈ child.nodes,
          found.toAttributes = { node.toAttributes with enumerator := found.enumerator } := by
  induction answers generalizing tree with
  | nil => exact Or.inl ⟨found, h, rfl⟩
  | cons entry rest ih =>
      obtain ⟨other, answer⟩ := entry
      cases answer with
      | error diagnostic =>
          rcases ih h with hbefore | ⟨path', update, hmem, horigin⟩
          · exact Or.inl hbefore
          · exact Or.inr ⟨path', update, List.mem_cons_of_mem _ hmem, horigin⟩
      | ok update =>
          rcases ih h with ⟨node, hnode, hkept⟩ | ⟨path', later, hmem, horigin⟩
          · rcases exists_origin_of_at?_apply hnode with
              ⟨before, hbefore, hsame⟩ | ⟨habove, child, hchild, hmem⟩
            · refine Or.inl ⟨before, hbefore, ?_⟩
              rw [hkept, hsame]
            · exact Or.inr ⟨other, update, List.mem_cons_self, habove, child, hchild, node, hmem,
                hkept⟩
          · exact Or.inr ⟨path', later, List.mem_cons_of_mem _ hmem, horigin⟩

/-! ## What pages answer -/

def outcome (tree : Node) (pages : RemoteCache.PageAnswers) : Outcome :=
  let answers := (requests tree).map (fun entry =>
    (entry.1, answer entry.2 (pages entry.2.dataUrl)))
  let results := answers.map (·.2)
  { tree := applyAll tree answers
    updated := results.countP (fun result => result.toBool)
    found := findings results }

/-- What is found in the end was there before, or comes with the text that a reference was given. -/
theorem exists_origin_of_at?_outcome {tree found : Node} {pages : RemoteCache.PageAnswers}
    {path : Path} (h : (outcome tree pages).tree.at? path = some found) :
    (∃ node, tree.at? path = some node ∧
        found.toAttributes = { node.toAttributes with enumerator := found.enumerator }) ∨
      ∃ other request update, (other, request) ∈ requests tree ∧ other <+: path ∧
        answer request (pages request.dataUrl) = .ok update ∧
        ∃ child ∈ update.children, ∃ node ∈ child.nodes,
          found.toAttributes = { node.toAttributes with enumerator := found.enumerator } := by
  rcases exists_origin_of_at?_applyAll h with hbefore | ⟨other, update, hmem, habove, horigin⟩
  · exact Or.inl hbefore
  · obtain ⟨entry, hentry, hanswer⟩ := List.mem_map.1 hmem
    obtain ⟨hpath, hupdate⟩ := Prod.mk.inj hanswer
    exact Or.inr ⟨other, entry.2, update, hpath ▸ hentry, habove, hupdate, horigin⟩

theorem readsPages_resolve (source : RemoteSource) (tree : Node) :
    RemoteCache.ReadsPages source (resolve source tree) (outcome tree) := by
  have hpages := RemoteCache.readsPages_each source
    (fun entry : Path × Request => RemoteCache.readsPages_page source entry.2.dataUrl)
    (requests tree)
  have hzip (pages : RemoteCache.PageAnswers) : ((requests tree).zip
        ((requests tree).map (fun entry => pages entry.2.dataUrl))).map
          (fun entry => (entry.1.1, answer entry.1.2 entry.2)) =
      (requests tree).map (fun entry => (entry.1, answer entry.2 (pages entry.2.dataUrl))) := by
    rw [← List.map_prod_left_eq_zip, List.map_map]
    rfl
  constructor
  · intro cache
    unfold resolve outcome
    simp only [hpages.result, hzip]
  · intro cache
    exact hpages.answers cache

end CrossDoc.RemoteReference
