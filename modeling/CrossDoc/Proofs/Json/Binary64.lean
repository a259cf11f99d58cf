import CrossDoc.Proofs.Json.Numeral

/-!
# Floating-point numbers that are written

A floating-point number is written in one of a few layouts, all of which follow the grammar of
numbers (`exists_spells_render`). The digits are those of the shortest decimal that names the
number, so they start with a zero only where the number is zero.
-/

namespace CrossDoc.Binary64

open Json Numeral

/-! ## The shortest decimal -/

theorem le_roundQuotient (num den : Nat) : num / den ≤ roundQuotient num den := by
  unfold roundQuotient
  simp only
  split
  · exact Nat.le_refl _
  · split
    · exact Nat.le_succ _
    · exact Nat.le_add_right _ _

theorem interval_pos {x : Binary64} (h : x.significand ≠ 0) : 0 < x.interval.1 := by
  unfold interval
  simp only
  refine Nat.mul_pos ?_ (Nat.pow_pos (by decide))
  split
  · omega
  · omega

theorem decimalAt?_ne_zero {x : Binary64} (h : x.significand ≠ 0) {exponent : Int} {digits : Nat}
    (hdigits : x.decimalAt? exponent = some digits) : digits ≠ 0 := by
  have hlow : 0 < x.interval.1 * Nat.pow 10 (-exponent).toNat :=
    Nat.mul_pos (interval_pos h) (Nat.pow_pos (by decide))
  have hback : ∀ floor up high : Nat,
      (if x.significand % 2 = 0 then
        decide (x.interval.1 * Nat.pow 10 (-exponent).toNat ≤ floor * up) &&
          decide (floor * up ≤ high)
      else
        decide (x.interval.1 * Nat.pow 10 (-exponent).toNat < floor * up) &&
          decide (floor * up < high)) = true → floor ≠ 0 := by
    rintro floor up high hreads rfl
    rw [Nat.zero_mul] at hreads
    split at hreads
    · simp only [Bool.and_eq_true, decide_eq_true_eq] at hreads
      omega
    · simp only [Bool.and_eq_true, decide_eq_true_eq] at hreads
      omega
  unfold decimalAt? at hdigits
  simp only at hdigits
  split at hdigits
  · rename_i hfloor _
    have hle := le_roundQuotient (4 * x.magnitude * Nat.pow 10 (-exponent).toNat)
      (Nat.pow 10 exponent.toNat * Nat.pow 2 1076)
    have hpos := Nat.pos_of_ne_zero (hback _ _ _ hfloor)
    exact Option.some.inj hdigits ▸ Nat.ne_of_gt (Nat.lt_of_lt_of_le hpos hle)
  · rename_i hfloor _
    exact Option.some.inj hdigits ▸ hback _ _ _ hfloor
  · exact Option.some.inj hdigits ▸ Nat.succ_ne_zero _
  · simp at hdigits

theorem shortest_exponent_eq_zero {x : Binary64} (h : x.significand ≠ 0)
    (hzero : x.shortest.1 = 0) : x.shortest.2 = 0 := by
  unfold shortest at hzero ⊢
  cases hfound : (List.range 700).findSome? (fun (i : Nat) =>
    (x.decimalAt? (308 - Int.ofNat i)).map (fun digits => (digits, (308 - Int.ofNat i : Int)))) with
  | none => rfl
  | some found =>
      obtain ⟨i, -, hi⟩ := List.exists_of_findSome?_eq_some hfound
      obtain ⟨digits, hdigits, rfl⟩ := Option.map_eq_some_iff.1 hi
      rw [hfound] at hzero
      exact absurd hzero (decimalAt?_ne_zero h hdigits)

/-! ## Layouts -/

variable (negative : Bool) {digits : List Char}

theorem isDigits_zeros_append (n : Nat) (h : IsDigits digits) :
    IsDigits (List.replicate n '0' ++ digits) := by
  refine ⟨by simp [h.1], fun c hc => ?_⟩
  rcases List.mem_append.1 hc with hzero | hdigit
  · rw [(List.mem_replicate.1 hzero).2]
    rfl
  · exact h.2 c hdigit

theorem isDigits_append_zeros (h : IsDigits digits) (n : Nat) :
    IsDigits (digits ++ List.replicate n '0') := by
  refine ⟨by simp [h.1], fun c hc => ?_⟩
  rcases List.mem_append.1 hc with hdigit | hzero
  · exact h.2 c hdigit
  · rw [(List.mem_replicate.1 hzero).2]
    rfl

theorem exists_spells_zeros (h : IsDigits digits) {n : Nat}
    (hwhole : isWhole (digits ++ List.replicate n '0') = true) :
    ∃ numeral, Spells ((if negative then ['-'] else []) ++
      (digits ++ List.replicate n '0' ++ ['.', '0'])) numeral := by
  have hspell : ∃ numeral, Spells
      (spell negative (digits ++ List.replicate n '0') (some ['0']) none) numeral :=
    exists_spells_spell negative hwhole (isDigits_append_zeros h n)
      (by rintro _ ⟨⟩; exact isDigits_zero) (by simp)
  simpa [spell, spellExponent] using hspell

theorem exists_spells_point (h : IsDigits digits) (hfirst : digits.head? ≠ some '0') {place : Nat}
    (hplace : 0 < place) (hlength : place < digits.length) :
    ∃ numeral, Spells ((if negative then ['-'] else []) ++
      (digits.take place ++ ['.'] ++ digits.drop place)) numeral := by
  have hwhole : IsDigits (digits.take place) :=
    ⟨by simp [h.1]; omega, fun c hc => h.2 c (List.mem_of_mem_take hc)⟩
  have hfraction : IsDigits (digits.drop place) :=
    ⟨by simpa using hlength, fun c hc => h.2 c (List.mem_of_mem_drop hc)⟩
  have hhead : (digits.take place).head? ≠ some '0' := by
    rw [List.head?_take, if_neg (by omega)]
    exact hfirst
  have hspell : ∃ numeral, Spells
      (spell negative (digits.take place) (some (digits.drop place)) none) numeral :=
    exists_spells_spell negative (isWhole_of_head?_ne_zero hwhole.1 hhead) hwhole
      (by rintro _ ⟨⟩; exact hfraction) (by simp)
  simpa [spell, spellExponent] using hspell

theorem exists_spells_below (h : IsDigits digits) (n : Nat) :
    ∃ numeral, Spells ((if negative then ['-'] else []) ++
      (['0', '.'] ++ List.replicate n '0' ++ digits)) numeral := by
  have hspell : ∃ numeral, Spells
      (spell negative ['0'] (some (List.replicate n '0' ++ digits)) none) numeral :=
    exists_spells_spell negative rfl isDigits_zero
      (by rintro _ ⟨⟩; exact isDigits_zeros_append n h) (by simp)
  simpa [spell, spellExponent] using hspell

theorem exists_spells_scale (h : IsDigits digits) (below : Prop) [Decidable below]
    {scale : List Char} (hscale : IsDigits scale) :
    ∃ numeral, Spells ((if negative then ['-'] else []) ++
      (digits.take 1 ++ (if digits.length = 1 then [] else '.' :: digits.drop 1) ++
        ['e', if below then '-' else '+'] ++ scale)) numeral := by
  obtain ⟨first, rest, rfl, hfirst⟩ := exists_eq_cons_of_isDigits h
  have hwhole : IsDigits [first] := ⟨by simp, by simpa using hfirst⟩
  have hone : isWhole [first] = true := by
    unfold isWhole
    split <;> simp_all
  have hscales : ∀ exponent ∈ some (decide below, scale), IsDigits exponent.2 := by
    rintro _ ⟨⟩
    exact hscale
  by_cases hrest : rest = []
  · have hspell : ∃ numeral, Spells
        (spell negative [first] none (some (decide below, scale))) numeral :=
      exists_spells_spell negative hone hwhole (by simp) hscales
    simpa [spell, spellExponent, hrest] using hspell
  · have hfraction : IsDigits rest := ⟨hrest, fun c hc => h.2 c (List.mem_cons_of_mem first hc)⟩
    have hspell : ∃ numeral, Spells
        (spell negative [first] (some rest) (some (decide below, scale))) numeral :=
      exists_spells_spell negative hone hwhole (by rintro _ ⟨⟩; exact hfraction) hscales
    simpa [spell, spellExponent, hrest] using hspell

/-- Every floating-point number is written by the grammar of numbers. -/
theorem exists_spells_render (x : Binary64) : ∃ numeral, Spells x.render numeral := by
  unfold render
  simp only
  by_cases hzero : x.significand = 0
  · rw [if_pos hzero]
    have hwhole : isWhole (['0'] ++ List.replicate 0 '0') = true := rfl
    exact exists_spells_zeros x.negative isDigits_zero hwhole
  rw [if_neg hzero]
  have hdigits := isDigits_toDigits x.shortest.1
  by_cases hwhole : (decide (0 ≤ x.shortest.2) &&
      decide ((Nat.toDigits 10 x.shortest.1).length + x.shortest.2 ≤ 16)) = true
  · rw [if_pos hwhole]
    refine exists_spells_zeros x.negative hdigits ?_
    by_cases hnumber : x.shortest.1 = 0
    · rw [shortest_exponent_eq_zero hzero hnumber, hnumber]
      rfl
    · refine isWhole_of_head?_ne_zero (isDigits_append_zeros hdigits _).1 ?_
      have hfirst := head?_toDigits_ne_zero hnumber
      cases hcons : Nat.toDigits 10 x.shortest.1 with
      | nil => exact absurd hcons hdigits.1
      | cons first rest =>
          rw [hcons] at hfirst
          exact hfirst
  rw [if_neg hwhole]
  by_cases hpoint : (decide (0 < (Nat.toDigits 10 x.shortest.1).length + x.shortest.2) &&
      decide ((Nat.toDigits 10 x.shortest.1).length + x.shortest.2 ≤ 16)) = true
  · rw [if_pos hpoint]
    simp only [Bool.and_eq_true, decide_eq_true_eq, not_and, Int.not_le] at hwhole hpoint
    have hnumber : x.shortest.1 ≠ 0 := by
      intro hnumber
      have hexponent := shortest_exponent_eq_zero hzero hnumber
      omega
    exact exists_spells_point x.negative hdigits (head?_toDigits_ne_zero hnumber) (by omega)
      (by omega)
  rw [if_neg hpoint]
  by_cases hbelow : (decide (-5 < (Nat.toDigits 10 x.shortest.1).length + x.shortest.2) &&
      decide ((Nat.toDigits 10 x.shortest.1).length + x.shortest.2 ≤ 0)) = true
  · rw [if_pos hbelow]
    exact exists_spells_below x.negative hdigits _
  · rw [if_neg hbelow]
    exact exists_spells_scale x.negative hdigits _ (isDigits_toDigits _)

end CrossDoc.Binary64
