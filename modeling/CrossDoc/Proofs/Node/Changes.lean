import CrossDoc.Proofs.Node.Order
import Mathlib.Data.List.Pairwise

/-!
# Changes at several paths

If none of several paths leads to or through another, changes at them do not meet: each is seen at
its path (`at?_modifyAll_of_mem`) and nowhere beside it (`at?_modifyAll_of_apart`), and they may be
made in any order (`modifyAll_perm`). So it is with the paths that are collected
(`pairwise_apart_collectPaths`).
-/

namespace CrossDoc

/-- Neither of two paths leads to the end of the other, nor through it. -/
def Path.Apart (path other : Path) : Prop := ¬ path <+: other ∧ ¬ other <+: path

namespace Node

variable {α : Type} {path other : Path} {tree node : Node}

/-! ## Collected paths -/

theorem apart_of_mem_collectPaths {p : Node → Bool} (hpath : path ∈ tree.collectPaths p)
    (hother : other ∈ tree.collectPaths p) (hne : path ≠ other) : Path.Apart path other :=
  ⟨fun habove => hne (eq_of_prefix_of_mem_collectPaths hpath hother habove),
    fun habove => hne (eq_of_prefix_of_mem_collectPaths hother hpath habove).symm⟩

theorem pairwise_apart_collectPaths (p : Node → Bool) (tree : Node) :
    (tree.collectPaths p).Pairwise Path.Apart :=
  (nodup_collectPaths p tree).imp_of_mem (fun hpath hother hne =>
    apart_of_mem_collectPaths hpath hother hne)

def readAt (read : Node → Option α) (tree : Node) (paths : List Path) : List (Path × α) :=
  paths.filterMap (fun path =>
    ((tree.at? path).bind read).map (fun found => (path, found)))

theorem mem_readAt_iff {read : Node → Option α} {paths : List Path} {found : α} :
    (path, found) ∈ readAt read tree paths ↔
      path ∈ paths ∧ ∃ node, tree.at? path = some node ∧ read node = some found := by
  simp only [readAt, List.mem_filterMap, Option.map_eq_some_iff, Option.bind_eq_some_iff,
    Prod.mk.injEq]
  constructor
  · rintro ⟨path', hmem, found', ⟨node, hnode, hfound⟩, rfl, rfl⟩
    exact ⟨hmem, node, hnode, hfound⟩
  · rintro ⟨hmem, node, hnode, hfound⟩
    exact ⟨path, hmem, found, ⟨node, hnode, hfound⟩, rfl, rfl⟩

theorem paths_readAt {read : Node → Option α} {p : Node → Bool}
    (h : ∀ node, p node = true → (read node).isSome = true) (tree : Node) :
    (readAt read tree (tree.collectPaths p)).map (·.1) = tree.collectPaths p := by
  unfold readAt
  rw [List.map_filterMap]
  refine (List.filterMap_congr (fun path hpath => ?_)).trans List.filterMap_some
  obtain ⟨⟨node, hnode, hp⟩, -⟩ := mem_collectPaths_iff.1 hpath
  obtain ⟨found, hfound⟩ := Option.isSome_iff_exists.1 (h node hp)
  simp [hnode, hfound]

/-! ## Changes -/

def modifyAll (changes : List (Path × (Node → Node))) (tree : Node) : Node :=
  changes.foldl (fun tree change => tree.modifyAt change.2 change.1) tree

variable {changes : List (Path × (Node → Node))} {f : Node → Node}

theorem at?_modifyAll_of_apart (h : ∀ change ∈ changes, Path.Apart change.1 path) :
    (modifyAll changes tree).at? path = tree.at? path := by
  induction changes generalizing tree with
  | nil => rfl
  | cons change rest ih =>
      obtain ⟨hchange, hrest⟩ := List.forall_mem_cons.1 h
      exact (ih hrest).trans (at?_modifyAt_of_incomparable change.2 tree hchange.1 hchange.2)

theorem at?_modifyAll_of_mem (hapart : (changes.map (·.1)).Pairwise Path.Apart)
    (h : (path, f) ∈ changes) : (modifyAll changes tree).at? path = (tree.at? path).map f := by
  induction changes generalizing tree with
  | nil => simp at h
  | cons change rest ih =>
      rw [List.map_cons, List.pairwise_cons] at hapart
      obtain ⟨hchange, hrest⟩ := hapart
      have hbeside : ∀ other ∈ rest, Path.Apart change.1 other.1 := fun other hother =>
        hchange other.1 (List.mem_map.2 ⟨other, hother, rfl⟩)
      change (modifyAll rest (tree.modifyAt change.2 change.1)).at? path = _
      rcases List.mem_cons.1 h with rfl | hmem
      · rw [at?_modifyAll_of_apart (fun other hother => (hbeside other hother).symm),
          at?_modifyAt_self]
      · obtain ⟨hpath, hother⟩ := hbeside _ hmem
        rw [ih hrest hmem, at?_modifyAt_of_incomparable change.2 tree hpath hother]

theorem surface_at?_modifyAll (h : ∀ change ∈ changes, ¬ change.1 <+: path) :
    ((modifyAll changes tree).at? path).map surface = (tree.at? path).map surface := by
  induction changes generalizing tree with
  | nil => rfl
  | cons change rest ih =>
      obtain ⟨hchange, hrest⟩ := List.forall_mem_cons.1 h
      exact (ih hrest).trans (surface_at?_modifyAt change.2 tree hchange)

/-- Changes at paths apart may be made in any order. -/
theorem modifyAll_perm {others : List (Path × (Node → Node))} (hperm : changes.Perm others)
    (hapart : (changes.map (·.1)).Pairwise Path.Apart) :
    modifyAll changes tree = modifyAll others tree := by
  have hsymm : Std.Symm (fun change other : Path × (Node → Node) =>
      Path.Apart change.1 other.1) := ⟨fun _ _ => And.symm⟩
  refine hperm.foldl_eq' (fun change hchange other hother tree => ?_) tree
  by_cases hsame : change = other
  · rw [hsame]
  · obtain ⟨hpath, hbeside⟩ := (List.pairwise_map.1 hapart).forall hchange hother hsame
    exact (modifyAt_comm change.2 other.2 tree hpath hbeside).symm

theorem modifyAll_eq_self (h : ∀ change ∈ changes, ∃ node,
    tree.at? change.1 = some node ∧ change.2 node = node) : modifyAll changes tree = tree := by
  induction changes with
  | nil => rfl
  | cons change rest ih =>
      obtain ⟨⟨node, hnode, hsame⟩, hrest⟩ := List.forall_mem_cons.1 h
      change modifyAll rest (tree.modifyAt change.2 change.1) = tree
      rw [modifyAt_eq_self change.2 hnode hsame, ih hrest]

end Node

end CrossDoc
