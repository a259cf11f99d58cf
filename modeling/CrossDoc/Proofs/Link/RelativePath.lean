import CrossDoc.Link.Internal
import CrossDoc.Proofs.Text.Pieces
import Mathlib.Data.List.Induction

/-!
# Following paths between documents

A path is followed segment by segment. The segments of a normal path lead down and nowhere else, so
a normal path leads to the document it names if it is taken from the project's root
(`resolve_slash`), or if it first goes back up to the root (`resolve_climb`). A directory stays a
list of names that lead down whatever segment is followed from it (`IsBelowRoot.follow`), so no
target leads out of the project (`resolve_stays_in_project`).
-/

namespace CrossDoc.RelativePath

def LeadsDown (segment : List Char) : Prop :=
  segment ≠ [] ∧ segment ≠ ['.'] ∧ segment ≠ ['.', '.']

instance (segment : List Char) : Decidable (LeadsDown segment) :=
  inferInstanceAs (Decidable (_ ∧ _))

def IsNormal (path : String) : Prop := ∀ segment ∈ segments path.toList, LeadsDown segment

instance (path : String) : Decidable (IsNormal path) :=
  inferInstanceAs (Decidable (∀ _ ∈ _, _))

variable {path : String}

theorem follow_of_leadsDown {segment : List Char} (h : LeadsDown segment)
    (directory : List (List Char)) : follow directory segment = directory ++ [segment] := by
  obtain ⟨hempty, hhere, hparent⟩ := h
  unfold follow
  rw [if_neg (by simp [hempty, hhere]), if_neg hparent]

theorem foldl_follow_of_leadsDown {below : List (List Char)}
    (h : ∀ segment ∈ below, LeadsDown segment) (directory : List (List Char)) :
    below.foldl follow directory = directory ++ below := by
  induction below generalizing directory with
  | nil => simp
  | cons segment rest ih =>
      rw [List.foldl_cons, follow_of_leadsDown (h segment List.mem_cons_self),
        ih (fun other hmem => h other (List.mem_cons_of_mem segment hmem)), List.append_assoc]
      rfl

theorem segments_slash (path : String) :
    segments ("/" ++ path).toList = [] :: segments path.toList := by
  unfold segments
  rw [String.toList_append]
  rfl

theorem resolve_slash (h : IsNormal path) (file : String) : resolve file ("/" ++ path) = path := by
  have hroot : start file.toList ("/" ++ path).toList = [] := by
    unfold start
    rw [String.toList_append]
    rfl
  unfold resolve
  simp only [hroot, segments_slash, List.foldl_cons]
  have hempty : follow [] [] = [] := rfl
  rw [hempty, foldl_follow_of_leadsDown h, List.nil_append, segments, Text.join_splitAt,
    String.ofList_toList]

/-! ## Staying in the project -/

variable {file : String} {directory : List (List Char)}

/-- A directory of the project: names that lead down from the root. -/
def IsBelowRoot (directory : List (List Char)) : Prop :=
  ∀ name ∈ directory, LeadsDown name ∧ '/' ∉ name

theorem IsBelowRoot.follow (h : IsBelowRoot directory) {segment : List Char}
    (hslash : '/' ∉ segment) : IsBelowRoot (follow directory segment) := by
  unfold RelativePath.follow
  split
  · exact h
  · rename_i hstays
    split
    · exact fun name hname => h name ((List.dropLast_sublist _).subset hname)
    · rename_i hparent
      have hdown : LeadsDown segment := by simpa [LeadsDown, hparent] using hstays
      intro name hname
      rcases List.mem_append.1 hname with hname | hname
      · exact h name hname
      · obtain rfl := List.mem_singleton.1 hname
        exact ⟨hdown, hslash⟩

theorem IsBelowRoot.foldl_follow (h : IsBelowRoot directory) {passed : List (List Char)}
    (hslash : ∀ segment ∈ passed, '/' ∉ segment) :
    IsBelowRoot (passed.foldl RelativePath.follow directory) := by
  induction passed generalizing directory with
  | nil => exact h
  | cons segment rest ih =>
      obtain ⟨hfirst, hrest⟩ := List.forall_mem_cons.1 hslash
      exact ih (h.follow hfirst) hrest

theorem slash_notMem_of_mem_segments {text segment : List Char} (h : segment ∈ segments text) :
    '/' ∉ segment := Text.notMem_of_mem_splitAt h

theorem isBelowRoot_start (hfile : IsNormal file) (target : List Char) :
    IsBelowRoot (start file.toList target) := by
  unfold start
  split
  · exact List.forall_mem_nil _
  · intro name hname
    have hsegment := (List.dropLast_sublist _).subset hname
    exact ⟨hfile name hsegment, slash_notMem_of_mem_segments hsegment⟩

/-- Wherever a target has led to after some of its segments, that is in the project. -/
theorem isBelowRoot_foldl (hfile : IsNormal file) {target : String} {passed : List (List Char)}
    (hpassed : passed <+: segments target.toList) :
    IsBelowRoot (passed.foldl follow (start file.toList target.toList)) :=
  (isBelowRoot_start hfile target.toList).foldl_follow
    (fun _ hsegment => slash_notMem_of_mem_segments (hpassed.subset hsegment))

theorem isNormal_of_isBelowRoot (h : IsBelowRoot directory) (hne : directory ≠ []) :
    IsNormal (String.ofList (Text.join ['/'] directory)) := by
  unfold IsNormal segments
  rw [String.toList_ofList, Text.splitAt_join hne (fun name hname => (h name hname).2)]
  exact fun name hname => (h name hname).1

theorem resolve_eq_empty_or_isNormal (hfile : IsNormal file) (target : String) :
    resolve file target = "" ∨ IsNormal (resolve file target) := by
  have hbelow := isBelowRoot_foldl hfile (List.prefix_refl (segments target.toList))
  unfold resolve
  generalize (segments target.toList).foldl follow (start file.toList target.toList) = reached
    at hbelow ⊢
  by_cases hempty : reached = []
  · subst hempty
    exact Or.inl rfl
  · exact Or.inr (isNormal_of_isBelowRoot hbelow hempty)

/-! ## Ways back -/

/-- The target that leads from the directory of a file up to the root, and then along a path. -/
def climb (file path : String) : String :=
  String.join (List.replicate (segments file.toList).dropLast.length "../") ++ path

theorem segments_parents (count : Nat) (path : String) :
    segments (String.join (List.replicate count "../") ++ path).toList =
      List.replicate count ['.', '.'] ++ segments path.toList := by
  induction count with
  | zero => simp
  | succ count ih =>
      have hparent : (String.join (List.replicate (count + 1) "../") ++ path).toList =
          ['.', '.'] ++ '/' :: (String.join (List.replicate count "../") ++ path).toList := by
        simp [List.replicate_succ]
      rw [hparent, segments, Text.splitAt_append_cons]
      exact congrArg (['.', '.'] :: ·) ih

theorem foldl_follow_parents (directory : List (List Char)) :
    (List.replicate directory.length ['.', '.']).foldl follow directory = [] := by
  induction directory using List.reverseRecOn with
  | nil => rfl
  | append_singleton directory name ih =>
      have hup : follow (directory ++ [name]) ['.', '.'] = directory := by
        unfold follow
        rw [if_neg (by decide), if_pos rfl, List.dropLast_concat]
      rw [List.length_append, List.length_singleton, List.replicate_succ, List.foldl_cons, hup, ih]

theorem head?_ne_slash_of_isNormal (h : IsNormal path) : path.toList.head? ≠ some '/' := by
  intro hslash
  obtain ⟨rest, hrest⟩ := List.head?_eq_some_iff.1 hslash
  unfold IsNormal at h
  rw [hrest] at h
  exact (h [] List.mem_cons_self).1 rfl

theorem resolve_climb (h : IsNormal path) (file : String) :
    resolve file (climb file path) = path := by
  have hstart : start file.toList (climb file path).toList = (segments file.toList).dropLast := by
    unfold start climb
    refine if_neg ?_
    cases (segments file.toList).dropLast.length with
    | zero => simpa using head?_ne_slash_of_isNormal h
    | succ count => simp [List.replicate_succ]
  have hreached : (segments (climb file path).toList).foldl follow
      (start file.toList (climb file path).toList) = segments path.toList := by
    rw [hstart, climb, segments_parents, List.foldl_append, foldl_follow_parents,
      foldl_follow_of_leadsDown h, List.nil_append]
  unfold resolve
  simp only [hreached]
  rw [segments, Text.join_splitAt, String.ofList_toList]

theorem resolve_slash_resolve (hfile : IsNormal file) (target other : String) :
    resolve other ("/" ++ resolve file target) = resolve file target := by
  rcases resolve_eq_empty_or_isNormal hfile target with hempty | hnormal
  · rw [hempty]
    rfl
  · exact resolve_slash hnormal other

/--
From a normal file every target leads to the root itself or along a normal path, and on its way it
is never outside of the project. What it leads to is led to again by its path from the root. A
normal path is reached from the file through the root, and by itself behind a slash.
-/
theorem resolve_stays_in_project (hfile : IsNormal file) :
    (∀ target : String,
      (resolve file target = "" ∨ IsNormal (resolve file target)) ∧
      (∀ passed, passed <+: segments target.toList →
        IsBelowRoot (passed.foldl follow (start file.toList target.toList))) ∧
      ∀ other, resolve other ("/" ++ resolve file target) = resolve file target) ∧
    ∀ path, IsNormal path →
      resolve file (climb file path) = path ∧ resolve file ("/" ++ path) = path := by
  refine ⟨fun target => ⟨resolve_eq_empty_or_isNormal hfile target, ?_, ?_⟩, fun path hpath => ?_⟩
  · exact fun passed hpassed => isBelowRoot_foldl hfile hpassed
  · exact fun other => resolve_slash_resolve hfile target other
  · exact ⟨resolve_climb hpath file, resolve_slash hpath file⟩

theorem chapter_stays_in_project :
    IsNormal "book/one/text.md" ∧ IsNormal "data/all.md" ∧
      resolve "book/one/text.md" "../../data/all.md" = "data/all.md" ∧
      resolve "book/one/text.md" "/data/all.md" = "data/all.md" ∧
      resolve "book/one/text.md" "../../../.././two//text.md" = "two/text.md" ∧
      resolve "other.md" "/two/text.md" = "two/text.md" := by
  have hfile : IsNormal "book/one/text.md" := by decide
  have hpath : IsNormal "data/all.md" := by decide
  have hclimb : climb "book/one/text.md" "data/all.md" = "../../data/all.md" := by decide
  have htwo : resolve "book/one/text.md" "../../../.././two//text.md" = "two/text.md" := by decide
  obtain ⟨htargets, hpaths⟩ := resolve_stays_in_project hfile
  obtain ⟨hup, hroot⟩ := hpaths "data/all.md" hpath
  obtain ⟨-, -, hagain⟩ := htargets "../../../.././two//text.md"
  rw [htwo] at hagain
  exact ⟨hfile, hpath, hclimb ▸ hup, hroot, htwo, hagain "other.md"⟩

end CrossDoc.RelativePath
