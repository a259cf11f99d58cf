import CrossDoc.Page
import CrossDoc.Proofs.SortedMap

/-!
# Edges between pages

What adding an edge and merging two graphs do to the pages that a page depends on. Graphs can be
merged in any order (`merge_right_comm`).
-/

namespace CrossDoc.DependencyGraph

/-! ## Unions -/

theorem contains_union (a b : SortedMap Unit) (key : String) :
    (union a b).contains key = (a.contains key || b.contains key) := by
  have halter : union a b =
      b.foldl (fun set member _ => set.alter member (fun _ => ())) a := rfl
  unfold SortedMap.contains
  rw [halter, SortedMap.get?_foldl_alter (fun _ _ => ())]
  cases b.get? key with
  | none => simp
  | some member => simp

theorem union_right_comm (a b c : SortedMap Unit) : union (union a b) c = union (union a c) b :=
  SortedMap.ext_contains (fun key => by
    simp only [contains_union, Bool.or_assoc, Bool.or_comm (b.contains key)])

/-! ## Edges -/

theorem mem_dependenciesOf {graph : DependencyGraph} {path dependency : String} :
    dependency ∈ graph.dependenciesOf path ↔
      ((graph.edges.get? path).getD ∅).contains dependency = true :=
  SortedMap.mem_keys

theorem mem_dependenciesOf_add {graph : DependencyGraph} {path dependency other found : String} :
    found ∈ (graph.add path dependency).dependenciesOf other ↔
      other = path ∧ found = dependency ∨ found ∈ graph.dependenciesOf other := by
  unfold add SortedMap.alter
  rw [mem_dependenciesOf, mem_dependenciesOf, SortedMap.get?_insert]
  by_cases h : other = path
  · subst h
    simp [SortedMap.contains_insert]
  · simp [h]

theorem add_eq_self {graph : DependencyGraph} {path dependency : String}
    (h : dependency ∈ graph.dependenciesOf path) : graph.add path dependency = graph := by
  rw [mem_dependenciesOf] at h
  have hedges : (graph.add path dependency).edges = graph.edges := by
    refine SortedMap.ext_get? (fun other => ?_)
    unfold add SortedMap.alter
    rw [SortedMap.get?_insert]
    split
    · rename_i hpath
      subst hpath
      cases hset : graph.edges.get? other with
      | none => simp [hset] at h
      | some set =>
          rw [hset, Option.getD_some] at h
          refine congrArg some (SortedMap.ext_contains (fun key => ?_))
          simp only [Option.getD_some, SortedMap.contains_insert]
          by_cases hkey : key = dependency
          · simp [hkey, h]
          · simp [hkey]
    · rfl
  exact congrArg mk hedges

/-! ## Merging -/

theorem get?_edges_merge (graph other : DependencyGraph) (path : String) :
    (graph.merge other).edges.get? path =
      match other.edges.get? path with
      | none => graph.edges.get? path
      | some set => some (union ((graph.edges.get? path).getD ∅) set) := by
  unfold merge
  rw [SortedMap.get?_foldl_alter (fun set set? => union (set?.getD ∅) set)]
  cases other.edges.get? path with
  | none => rfl
  | some set => rfl

theorem mem_dependenciesOf_merge {graph other : DependencyGraph} {path found : String} :
    found ∈ (graph.merge other).dependenciesOf path ↔
      found ∈ graph.dependenciesOf path ∨ found ∈ other.dependenciesOf path := by
  rw [mem_dependenciesOf, mem_dependenciesOf, mem_dependenciesOf, get?_edges_merge]
  cases other.edges.get? path with
  | none => simp
  | some set => simp [contains_union]

theorem merge_right_comm (graph a b : DependencyGraph) :
    (graph.merge a).merge b = (graph.merge b).merge a := by
  have hedges : ((graph.merge a).merge b).edges = ((graph.merge b).merge a).edges := by
    refine SortedMap.ext_get? (fun path => ?_)
    simp only [get?_edges_merge]
    cases a.edges.get? path with
    | none => rfl
    | some set =>
        cases b.edges.get? path with
        | none => rfl
        | some other => exact congrArg some (union_right_comm _ set other)
  cases hleft : (graph.merge a).merge b
  cases hright : (graph.merge b).merge a
  rw [hleft, hright] at hedges
  exact congrArg mk hedges

theorem mem_dependenciesOf_foldl_merge {graphs : List DependencyGraph} {graph : DependencyGraph}
    {path found : String} :
    found ∈ (graphs.foldl merge graph).dependenciesOf path ↔
      found ∈ graph.dependenciesOf path ∨
        ∃ other ∈ graphs, found ∈ other.dependenciesOf path := by
  induction graphs generalizing graph with
  | nil => simp
  | cons first rest ih =>
      rw [List.foldl_cons, ih, mem_dependenciesOf_merge]
      simp [or_assoc]

theorem foldl_merge_perm {graphs others : List DependencyGraph} (h : graphs.Perm others)
    (graph : DependencyGraph) : graphs.foldl merge graph = others.foldl merge graph :=
  h.foldl_eq' (fun a _ b _ graph => merge_right_comm graph a b) graph

end CrossDoc.DependencyGraph
