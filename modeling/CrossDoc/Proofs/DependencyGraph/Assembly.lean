import CrossDoc.Proofs.DependencyGraph
import Mathlib.Data.Finset.Card

/-!
# Graphs put together from edges

A graph starts empty, and edges are added to it and other graphs merged into it. It keeps no page
that depends on nothing (`Assembly.isTrim_graph`), so it is determined by the edges that were added,
in whatever order and in whatever groups that was done (`Assembly.graph_eq_iff`). What merging does
to graphs is then what a union does to sets of edges.
-/

namespace CrossDoc.DependencyGraph

variable {path dependency : String}

section

variable {graph other : DependencyGraph}

/-! ## What a graph lists -/

theorem pairwise_lt_dependenciesOf (graph : DependencyGraph) (path : String) :
    (graph.dependenciesOf path).Pairwise (· < ·) :=
  List.pairwise_map.2 ((graph.edges.get? path).getD ∅).sorted

theorem pairwise_lt_dependentsOf (graph : DependencyGraph) (dependency : String) :
    (graph.dependentsOf dependency).Pairwise (· < ·) :=
  List.pairwise_map.2 (graph.edges.sorted.filter _)

theorem mem_dependentsOf :
    path ∈ graph.dependentsOf dependency ↔ dependency ∈ graph.dependenciesOf path := by
  rw [mem_dependenciesOf]
  unfold dependentsOf
  simp only [List.mem_map, List.mem_filter]
  constructor
  · rintro ⟨entry, ⟨hentry, hcontains⟩, rfl⟩
    rw [SortedMap.get?_eq_some_iff_mem.2 hentry]
    exact hcontains
  · intro hcontains
    cases hset : graph.edges.get? path with
    | none => simp [hset] at hcontains
    | some set =>
        rw [hset] at hcontains
        exact ⟨(path, set), ⟨SortedMap.get?_eq_some_iff_mem.1 hset, hcontains⟩, rfl⟩

def edgeList (graph : DependencyGraph) : List (String × String) :=
  graph.edges.entries.flatMap (fun entry => entry.2.keys.map (fun dependency =>
    (entry.1, dependency)))

theorem length_edgeList (graph : DependencyGraph) : graph.edgeList.length = graph.edgeCount := by
  unfold edgeList edgeCount SortedMap.values
  simp [List.flatMap_map, List.length_flatMap, SortedMap.keys]

theorem mem_edgeList : (path, dependency) ∈ graph.edgeList ↔
    dependency ∈ graph.dependenciesOf path := by
  unfold edgeList
  simp only [List.mem_flatMap, List.mem_map, Prod.mk.injEq]
  constructor
  · rintro ⟨entry, hentry, found, hfound, rfl, rfl⟩
    unfold dependenciesOf
    rw [SortedMap.get?_eq_some_iff_mem.2 hentry]
    exact hfound
  · intro hdependency
    unfold dependenciesOf at hdependency
    cases hset : graph.edges.get? path with
    | none =>
        rw [hset, Option.getD_none, SortedMap.mem_keys] at hdependency
        simp at hdependency
    | some set =>
        rw [hset] at hdependency
        have hentry := SortedMap.get?_eq_some_iff_mem.1 hset
        exact ⟨(path, set), hentry, dependency, hdependency, rfl, rfl⟩

theorem nodup_edgeList (graph : DependencyGraph) : graph.edgeList.Nodup := by
  unfold edgeList
  refine List.nodup_flatMap.2 ⟨fun entry _ => ?_, graph.edges.sorted.imp (fun hlt => ?_)⟩
  · exact entry.2.nodup_keys.map (fun _ _ hsame => (Prod.mk.inj hsame).2)
  · intro edge hedge hother
    obtain ⟨found, -, rfl⟩ := List.mem_map.1 hedge
    obtain ⟨second, -, hsame⟩ := List.mem_map.1 hother
    exact String.lt_irrefl _ ((Prod.mk.inj hsame).1 ▸ hlt)

/-! ## Graphs without idle pages -/

/-- A graph keeps no page that depends on nothing. -/
def IsTrim (graph : DependencyGraph) : Prop :=
  ∀ path set, graph.edges.get? path = some set → set ≠ ∅

theorem IsTrim.exists_mem (h : graph.IsTrim) {set : SortedMap Unit}
    (hset : graph.edges.get? path = some set) :
    ∃ dependency, dependency ∈ graph.dependenciesOf path := by
  by_contra hnone
  refine h path set hset (SortedMap.ext_contains (fun key => ?_))
  have hkey : key ∉ graph.dependenciesOf path := fun hmem => hnone ⟨key, hmem⟩
  rw [mem_dependenciesOf, hset] at hkey
  simpa using hkey

/-- A trim graph is determined by its edges. -/
theorem IsTrim.ext (hgraph : graph.IsTrim) (hother : other.IsTrim)
    (h : ∀ path dependency,
      dependency ∈ graph.dependenciesOf path ↔ dependency ∈ other.dependenciesOf path) :
    graph = other := by
  have hedges : graph.edges = other.edges := by
    refine SortedMap.ext_get? (fun path => ?_)
    cases hset : graph.edges.get? path with
    | none =>
        cases hotherSet : other.edges.get? path with
        | none => rfl
        | some set =>
            obtain ⟨dependency, hdependency⟩ := hother.exists_mem hotherSet
            rw [← h, mem_dependenciesOf, hset] at hdependency
            exact absurd hdependency (by simp)
    | some set =>
        cases hotherSet : other.edges.get? path with
        | none =>
            obtain ⟨dependency, hdependency⟩ := hgraph.exists_mem hset
            rw [h, mem_dependenciesOf, hotherSet] at hdependency
            exact absurd hdependency (by simp)
        | some otherSet =>
            refine congrArg some (SortedMap.ext_contains (fun key => ?_))
            have hkey := h path key
            rw [mem_dependenciesOf, mem_dependenciesOf, hset, hotherSet] at hkey
            exact Bool.eq_iff_iff.2 hkey
  cases graph
  cases other
  exact congrArg mk hedges

theorem ne_empty_of_contains {set : SortedMap Unit} (key : String)
    (h : set.contains key = true) : set ≠ ∅ := by
  rintro rfl
  simp at h

theorem isTrim_empty : IsTrim {} := by
  intro path set hset
  simp at hset

theorem IsTrim.add (h : graph.IsTrim) (path dependency : String) :
    (graph.add path dependency).IsTrim := by
  intro found set hset
  unfold DependencyGraph.add SortedMap.alter at hset
  rw [SortedMap.get?_insert] at hset
  split at hset
  · obtain rfl := Option.some.inj hset
    exact ne_empty_of_contains dependency (by simp [SortedMap.contains_insert])
  · exact h found set hset

theorem IsTrim.merge (h : graph.IsTrim) (hother : other.IsTrim) : (graph.merge other).IsTrim := by
  intro path set hset
  rw [get?_edges_merge] at hset
  cases hadded : other.edges.get? path with
  | none => exact h path set (by rwa [hadded] at hset)
  | some added =>
      rw [hadded] at hset
      obtain rfl := Option.some.inj hset
      obtain ⟨dependency, hdependency⟩ := hother.exists_mem hadded
      rw [mem_dependenciesOf, hadded, Option.getD_some] at hdependency
      exact ne_empty_of_contains dependency (by simp [contains_union, hdependency])

end

/-! ## Putting graphs together -/

/-- How a graph was put together. -/
inductive Assembly where
  | empty
  | add (assembly : Assembly) (path dependency : String)
  | merge (assembly other : Assembly)

namespace Assembly

variable {assembly other : Assembly}

def graph : Assembly → DependencyGraph
  | empty => {}
  | add assembly path dependency => assembly.graph.add path dependency
  | merge assembly other => assembly.graph.merge other.graph

def added : Assembly → Finset (String × String)
  | empty => ∅
  | add assembly path dependency => insert (path, dependency) assembly.added
  | merge assembly other => assembly.added ∪ other.added

theorem isTrim_graph (assembly : Assembly) : assembly.graph.IsTrim := by
  induction assembly with
  | empty => exact isTrim_empty
  | add assembly path dependency ih => exact ih.add path dependency
  | merge assembly other ih ihOther => exact ih.merge ihOther

theorem mem_dependenciesOf_graph : dependency ∈ assembly.graph.dependenciesOf path ↔
    (path, dependency) ∈ assembly.added := by
  induction assembly with
  | empty => simp [graph, added, mem_dependenciesOf]
  | add assembly first second ih => simp [graph, added, mem_dependenciesOf_add, ih]
  | merge assembly other ih ihOther => simp [graph, added, mem_dependenciesOf_merge, ih, ihOther]

theorem toFinset_edgeList (assembly : Assembly) :
    assembly.graph.edgeList.toFinset = assembly.added := by
  refine Finset.ext (fun edge => ?_)
  obtain ⟨path, dependency⟩ := edge
  rw [List.mem_toFinset, mem_edgeList, mem_dependenciesOf_graph]

theorem edgeCount_graph (assembly : Assembly) :
    assembly.graph.edgeCount = assembly.added.card := by
  rw [← length_edgeList, ← toFinset_edgeList,
    List.toFinset_card_of_nodup (nodup_edgeList assembly.graph)]

theorem graph_eq_iff : assembly.graph = other.graph ↔ assembly.added = other.added := by
  constructor
  · intro h
    rw [← toFinset_edgeList, ← toFinset_edgeList, h]
  · intro h
    refine assembly.isTrim_graph.ext other.isTrim_graph (fun path dependency => ?_)
    rw [mem_dependenciesOf_graph, mem_dependenciesOf_graph, h]

end Assembly

/-- A graph answers for a set of edges: these are the ones that it lists and counts. -/
structure AnswersFor (graph : DependencyGraph) (edges : Finset (String × String)) : Prop where
  dependencies : ∀ path dependency,
    dependency ∈ graph.dependenciesOf path ↔ (path, dependency) ∈ edges
  dependents : ∀ path dependency,
    path ∈ graph.dependentsOf dependency ↔ (path, dependency) ∈ edges
  dependencies_sorted : ∀ path, (graph.dependenciesOf path).Pairwise (· < ·)
  dependents_sorted : ∀ dependency, (graph.dependentsOf dependency).Pairwise (· < ·)
  count : graph.edgeCount = edges.card

theorem Assembly.answersFor_graph (assembly : Assembly) :
    assembly.graph.AnswersFor assembly.added where
  dependencies _ _ := mem_dependenciesOf_graph
  dependents _ _ := mem_dependentsOf.trans mem_dependenciesOf_graph
  dependencies_sorted := pairwise_lt_dependenciesOf assembly.graph
  dependents_sorted := pairwise_lt_dependentsOf assembly.graph
  count := assembly.edgeCount_graph

/--
Graphs that are put together are determined by the edges that were added. They list and count just
these, and an edge is found from either of its pages. Merging is associative, commutative and
idempotent, and merging with the empty graph changes nothing.
-/
theorem assembly_determined_by_edges (a b c : Assembly) :
    (a.graph = b.graph ↔ a.added = b.added) ∧
    a.graph.AnswersFor a.added ∧
    (∀ path dependency,
      dependency ∈ a.graph.dependenciesOf path ↔ path ∈ a.graph.dependentsOf dependency) ∧
    (a.graph.merge b.graph).merge c.graph = a.graph.merge (b.graph.merge c.graph) ∧
    a.graph.merge b.graph = b.graph.merge a.graph ∧
    a.graph.merge a.graph = a.graph ∧
    a.graph.merge {} = a.graph ∧ merge {} a.graph = a.graph := by
  have hassoc : ((a.merge b).merge c).graph = (a.merge (b.merge c)).graph :=
    Assembly.graph_eq_iff.2 (Finset.union_assoc a.added b.added c.added)
  have hcomm : (a.merge b).graph = (b.merge a).graph :=
    Assembly.graph_eq_iff.2 (Finset.union_comm a.added b.added)
  have hself : (a.merge a).graph = a.graph :=
    Assembly.graph_eq_iff.2 (Finset.union_self a.added)
  have hright : (a.merge .empty).graph = a.graph :=
    Assembly.graph_eq_iff.2 (Finset.union_empty a.added)
  have hleft : (Assembly.empty.merge a).graph = a.graph :=
    Assembly.graph_eq_iff.2 (Finset.empty_union a.added)
  exact ⟨Assembly.graph_eq_iff, a.answersFor_graph, fun _ _ => mem_dependentsOf.symm, hassoc,
    hcomm, hself, hright, hleft⟩

end CrossDoc.DependencyGraph
