import CrossDoc.Target.PageTargets
import Mathlib.Data.List.Chain
import Mathlib.Data.List.DropRight
import Mathlib.Data.List.Lex
import Mathlib.Data.List.Nodup

/-!
# Numbers of sections

What the numbers of headings ought to be, said without counters. A number has one entry for each
level from the first that is numbered down to the heading's own: how many headings of that level
there are since the last shallower one (`sectionNumber`).

* Adding one to a counter and clearing the deeper ones keeps every counter at that count, as far as
  a word of 32 bits tells it (`advance_counterSince`); it tells all of it where there are fewer than
  2 ^ 32 headings (`dotted_map_ofNat`).
* In document order the numbers grow lexicographically (`sectionNumbers_pairwise_lt`): a deeper
  heading's number extends the one before it, any other adds one at its own level.
* A number can be told from its text (`dotted_inj`), since no digit is a dot.
-/

namespace CrossDoc

/-- How many entries `level` there are in a list since its last smaller one. -/
def countSince (levels : List Nat) (level : Nat) : Nat :=
  (levels.rtakeWhile (level ≤ ·)).count level

def counterSince (levels : List Nat) (level : Nat) : UInt32 := .ofNat (countSince levels level)

/--
The number of the last of some headings, whose own level is `level`: for each level from `start` to
`level`, how many headings there are at it since the last shallower one.
-/
def sectionNumber (start : Nat) (levels : List Nat) (level : Nat) : List Nat :=
  (List.range' start (level + 1 - start)).map (countSince levels)

def sectionNumbers (start : Nat) (levels : List Nat) : List (List Nat) :=
  levels.mapIdx (fun place level => sectionNumber start (levels.take (place + 1)) level)

variable {start level last : Nat} {levels : List Nat}

/-! ## One more heading -/

theorem countSince_append_of_lt (h : last < level) : countSince (levels ++ [last]) level = 0 := by
  unfold countSince
  rw [List.rtakeWhile_concat_neg]
  · rfl
  · simpa using h

theorem countSince_append_self :
    countSince (levels ++ [last]) last = countSince levels last + 1 := by
  unfold countSince
  rw [List.rtakeWhile_concat_pos _ _ _ (by simp), List.count_append, List.count_singleton_self]

theorem countSince_append_of_gt (h : level < last) :
    countSince (levels ++ [last]) level = countSince levels level := by
  have hother : [last].count level = 0 := List.count_eq_zero.2 (by simpa using h.ne)
  unfold countSince
  rw [List.rtakeWhile_concat_pos _ _ _ (by simpa using h.le), List.count_append, hother,
    Nat.add_zero]

namespace Counters

theorem advance_counterSince {place count : Nat} (first : Nat) (h : place < count) :
    advance place ((List.range' first count).map (counterSince levels)) =
      (List.range' first count).map (counterSince (levels ++ [first + place])) := by
  induction count generalizing first place with
  | zero => omega
  | succ count ih =>
      rw [List.range'_succ]
      cases place with
      | zero =>
          have hdeeper : ∀ other ∈ List.range' (first + 1) count,
              counterSince (levels ++ [first]) other = 0 := by
            intro other hother
            have hbounds := List.mem_range'_1.1 hother
            exact congrArg UInt32.ofNat (countSince_append_of_lt (by omega))
          have hown : counterSince (levels ++ [first]) first = counterSince levels first + 1 := by
            unfold counterSince
            rw [countSince_append_self, UInt32.ofNat_add]
            rfl
          simp only [List.map_cons, advance, Nat.add_zero, hown, List.map_map]
          exact congrArg _ (List.map_congr_left fun other hother => (hdeeper other hother).symm)
      | succ place =>
          have hrest := ih (first + 1) (Nat.lt_of_succ_lt_succ h)
          have hplace : first + 1 + place = first + (place + 1) := by omega
          rw [hplace] at hrest
          simp only [List.map_cons, advance, hrest]
          rw [counterSince, counterSince, countSince_append_of_gt (by omega)]

/-- The counters from the first level that is numbered to a heading's own are its number. -/
theorem headingNumbers_counterSince {deepest : Nat} (hstart : 1 ≤ start)
    (hlevel : level ≤ deepest) :
    headingNumbers start level ((List.range' 1 deepest).map (counterSince levels)) =
      (sectionNumber start levels level).map UInt32.ofNat := by
  have hfirst : 1 + (start - 1) = start := by omega
  have hlength : level - (start - 1) = level + 1 - start := by omega
  unfold headingNumbers sectionNumber
  rw [← List.map_take, ← List.map_drop, List.take_range'_of_length_ge hlevel, List.drop_range',
    Nat.mul_one, hfirst, hlength, List.map_map]
  rfl

end Counters

/-! ## Document order -/

theorem lt_append_of_ne_nil {number rest : List Nat} (h : rest ≠ []) : number < number ++ rest := by
  obtain ⟨head, tail, rfl⟩ := List.exists_cons_of_ne_nil h
  have hnil : number ++ [] < number ++ head :: tail := List.append_left_lt (List.nil_lt_cons _ _)
  rwa [List.append_nil] at hnil

theorem sectionNumber_lt_next (hlevel : start ≤ level) (hlast : start ≤ last) :
    sectionNumber start (levels ++ [level]) level <
      sectionNumber start (levels ++ [level] ++ [last]) last := by
  have hkeep : ∀ count, start + count ≤ last →
      (List.range' start count).map (countSince (levels ++ [level] ++ [last])) =
        (List.range' start count).map (countSince (levels ++ [level])) := by
    intro count hcount
    refine List.map_congr_left fun other hother => countSince_append_of_gt ?_
    have hbounds := List.mem_range'_1.1 hother
    omega
  unfold sectionNumber
  by_cases hdeeper : level < last
  · have hsplit : last + 1 - start = level + 1 - start + (last - level) := by omega
    rw [hsplit, ← List.range'_append_1, List.map_append, hkeep _ (by omega)]
    exact lt_append_of_ne_nil (by simp; omega)
  · have hsplit : ∀ more, List.range' start (last - start + (more + 1)) =
        List.range' start (last - start) ++ last :: List.range' (last + 1) more := by
      intro more
      have hown : start + (last - start) = last := by omega
      rw [← List.range'_append_1, hown, List.range'_succ]
    have hbefore : level + 1 - start = last - start + (level - last + 1) := by omega
    have hafter : last + 1 - start = last - start + (0 + 1) := by omega
    rw [hbefore, hafter, hsplit, hsplit, List.map_append, List.map_append, hkeep _ (by omega)]
    refine List.append_left_lt (List.cons_lt_cons_iff.2 (Or.inl ?_))
    rw [countSince_append_self]
    exact Nat.lt_succ_self _

theorem sectionNumbers_append (start : Nat) (levels : List Nat) (last : Nat) :
    sectionNumbers start (levels ++ [last]) =
      sectionNumbers start levels ++ [sectionNumber start (levels ++ [last]) last] := by
  have hown : (levels ++ [last]).take (levels.length + 1) = levels ++ [last] :=
    List.take_of_length_le (by simp)
  unfold sectionNumbers
  rw [List.mapIdx_concat, hown]
  congr 1
  refine List.ext_getElem (by simp) fun place hplace _ => ?_
  have hlt : place < levels.length := by simpa using hplace
  simp only [List.getElem_mapIdx]
  rw [List.take_append_of_le_length (by omega)]

theorem sectionNumbers_pairwise_lt (h : ∀ level ∈ levels, start ≤ level) :
    (sectionNumbers start levels).Pairwise (· < ·) := by
  rw [← List.isChain_iff_pairwise]
  induction levels using List.reverseRecOn with
  | nil => exact List.isChain_nil
  | append_singleton levels last ih =>
      have hbefore := ih fun level hlevel => h level (by simp [hlevel])
      rw [sectionNumbers_append]
      refine List.isChain_append.2 ⟨hbefore, List.isChain_singleton _, ?_⟩
      intro number hnumber next hnext
      rcases List.eq_nil_or_concat' levels with rfl | ⟨earlier, level, rfl⟩
      · simp [sectionNumbers] at hnumber
      · rw [sectionNumbers_append] at hnumber
        obtain rfl : sectionNumber start (earlier ++ [level]) level = number := by
          simpa using hnumber
        obtain rfl : sectionNumber start (earlier ++ [level] ++ [last]) last = next := by
          simpa using hnext
        exact sectionNumber_lt_next (h level (by simp)) (h last (by simp))

/-! ## Texts of numbers -/

namespace Counters

theorem toString_injective : Function.Injective (toString : Nat → String) := by
  intro n other hsame
  have hdigits : Nat.toDigits 10 n = Nat.toDigits 10 other := by
    rw [← Nat.toList_repr, ← Nat.toList_repr]
    exact congrArg String.toList hsame
  rw [← Nat.ofDigitChars_ten_toDigits (n := n), hdigits, Nat.ofDigitChars_ten_toDigits]

theorem toString_ofNat {n : Nat} (h : n < UInt32.size) : toString (UInt32.ofNat n) = toString n :=
  congrArg toString (UInt32.toNat_ofNat_of_lt' h)

theorem dotted_map_ofNat {numbers : List Nat} (h : ∀ n ∈ numbers, n < UInt32.size) :
    dotted (numbers.map UInt32.ofNat) = dotted numbers := by
  unfold dotted
  rw [List.map_map]
  exact congrArg _ (List.map_congr_left fun n hn => toString_ofNat (h n hn))

theorem dot_notMem_toString (n : Nat) : '.' ∉ (toString n).toList := by
  intro hdot
  have hdigit : '.' ∈ Nat.toDigits 10 n := Nat.toList_repr ▸ hdot
  exact absurd (Nat.isDigit_of_mem_toDigits (by decide) (by decide) hdigit) (by decide)

theorem splitOn_dotted {numbers : List Nat} (h : numbers ≠ []) :
    (dotted numbers).toList.splitOn '.' = numbers.map (fun n => (toString n).toList) := by
  unfold dotted
  rw [String.toList_intercalate, List.map_map]
  refine List.splitOn_intercalate '.' ?_ (by simpa using h)
  intro piece hpiece
  obtain ⟨n, -, rfl⟩ := List.mem_map.1 hpiece
  exact dot_notMem_toString n

theorem dotted_inj {numbers others : List Nat} (hnumbers : numbers ≠ []) (hothers : others ≠ [])
    (h : dotted numbers = dotted others) : numbers = others := by
  have hsplit := splitOn_dotted hnumbers
  rw [h, splitOn_dotted hothers] at hsplit
  refine (List.map_injective_iff.2 ?_ hsplit).symm
  exact fun n other hsame => toString_injective (String.toList_injective hsame)

end Counters

theorem sectionNumber_ne_nil (h : start ≤ level) : sectionNumber start levels level ≠ [] := by
  unfold sectionNumber
  simp
  omega

theorem ne_nil_of_mem_sectionNumbers (h : ∀ level ∈ levels, start ≤ level) {number : List Nat}
    (hnumber : number ∈ sectionNumbers start levels) : number ≠ [] := by
  obtain ⟨place, hplace, rfl⟩ := List.mem_mapIdx.1 hnumber
  exact sectionNumber_ne_nil (h _ (List.getElem_mem hplace))

theorem le_length_of_mem_sectionNumbers {number : List Nat}
    (hnumber : number ∈ sectionNumbers start levels) : ∀ n ∈ number, n ≤ levels.length := by
  obtain ⟨place, -, rfl⟩ := List.mem_mapIdx.1 hnumber
  intro n hn
  obtain ⟨level, -, rfl⟩ := List.mem_map.1 hn
  calc
    countSince (levels.take (place + 1)) level
        ≤ ((levels.take (place + 1)).rtakeWhile (level ≤ ·)).length := List.count_le_length
    _ ≤ (levels.take (place + 1)).length := (List.rtakeWhile_suffix _ _).length_le
    _ ≤ levels.length := List.length_take_le' _ _

theorem dotted_map_ofNat_of_mem (hfew : levels.length < UInt32.size) {number : List Nat}
    (hnumber : number ∈ sectionNumbers start levels) :
    Counters.dotted (number.map UInt32.ofNat) = Counters.dotted number :=
  Counters.dotted_map_ofNat fun n hn =>
    (le_length_of_mem_sectionNumbers hnumber n hn).trans_lt hfew

theorem nodup_dotted_sectionNumbers (h : ∀ level ∈ levels, start ≤ level) :
    ((sectionNumbers start levels).map Counters.dotted).Nodup := by
  refine List.Nodup.map_on ?_ ?_
  · intro number hnumber other hother hsame
    exact Counters.dotted_inj (ne_nil_of_mem_sectionNumbers h hnumber)
      (ne_nil_of_mem_sectionNumbers h hother) hsame
  · exact (sectionNumbers_pairwise_lt h).imp fun hlt => ne_of_lt hlt

end CrossDoc
