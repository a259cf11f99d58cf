import CrossDoc.Json.Printer
import CrossDoc.Json.Token

/-!
# Numbers that are written

Integers and floating-point numbers are written by the grammar of numbers, so they are read as one
token (`exists_spells_renderInt`, `exists_spells_render`). An integer has its value again just if it
fits 64 bits, with sign or without (`readNumber?_int_iff`). A floating-point number is read by
rounding twice, and need not come back as it was.
-/

namespace CrossDoc.Json

theorem takeWhile_append_of_stop {p : Char → Bool} {run rest : List Char}
    (hrun : ∀ c ∈ run, p c = true) (hrest : ∀ c ∈ rest.head?, p c = false) :
    (run ++ rest).takeWhile p = run ∧ (run ++ rest).dropWhile p = rest := by
  rw [List.takeWhile_append_of_pos hrun, List.dropWhile_append_of_pos hrun]
  cases rest with
  | nil => simp
  | cons c others =>
      have hstop : p c = false := hrest c rfl
      simp [hstop]

namespace Numeral

/-! ## The grammar of numbers -/

def spellExponent (exponent : Option (Bool × List Char)) : List Char :=
  (exponent.map (fun scale => 'e' :: (if scale.1 then '-' else '+') :: scale.2)).getD []

def spell (negative : Bool) (whole : List Char) (fraction : Option (List Char))
    (exponent : Option (Bool × List Char)) : List Char :=
  (if negative then ['-'] else []) ++
    (whole ++ ((fraction.map ('.' :: ·)).getD [] ++ spellExponent exponent))

def IsDigits (text : List Char) : Prop := text ≠ [] ∧ ∀ c ∈ text, c.isDigit = true

theorem isDigits_zero : IsDigits ['0'] := ⟨List.cons_ne_nil _ _, List.forall_mem_singleton.2 rfl⟩

variable {negative : Bool} {whole : List Char} {fraction : Option (List Char)}
  {exponent : Option (Bool × List Char)}

theorem exists_eq_cons_of_isDigits (h : IsDigits whole) :
    ∃ first rest, whole = first :: rest ∧ first.isDigit = true := by
  cases whole with
  | nil => exact absurd rfl h.1
  | cons first rest => exact ⟨first, rest, rfl, h.2 first List.mem_cons_self⟩

theorem takeSign_of_isDigit {first : Char} (h : first.isDigit = true) (rest : List Char) :
    takeSign (first :: rest) = (false, first :: rest) := by
  unfold takeSign
  split
  · rename_i heq
    obtain ⟨rfl, -⟩ := List.cons.inj heq
    exact absurd h (by decide)
  · rfl

theorem exponent?_of_isDigits (negative : Bool) (h : IsDigits whole) :
    exponent? ((if negative then '-' else '+') :: whole) =
      some (if negative then -(digitsValue whole : Int) else digitsValue whole) := by
  have hempty : whole.isEmpty = false := by simpa using h.1
  have hdigits : whole.any (fun c => !c.isDigit) = false := by simpa using h.2
  unfold exponent?
  cases negative with
  | true => simp [takeSign, hempty, hdigits]
  | false => simp [hempty, hdigits]

theorem head?_spellExponent (exponent : Option (Bool × List Char)) :
    ∀ c ∈ (spellExponent exponent).head?, c.isDigit = false := by
  cases exponent with
  | none => simp [spellExponent]
  | some scale => simp [spellExponent]

theorem takeFraction_spell (hfraction : ∀ digits ∈ fraction, IsDigits digits)
    (exponent : Option (Bool × List Char)) :
    takeFraction ((fraction.map ('.' :: ·)).getD [] ++ spellExponent exponent) =
      (fraction, spellExponent exponent) := by
  cases fraction with
  | none =>
      cases exponent with
      | none => rfl
      | some scale => rfl
  | some digits =>
      obtain ⟨htake, hdrop⟩ := takeWhile_append_of_stop (hfraction digits rfl).2
        (head?_spellExponent exponent)
      simp only [Option.map_some, Option.getD_some, List.cons_append, takeFraction, htake, hdrop]

theorem takeSign_spell (hdigits : IsDigits whole) (rest : List Char) :
    takeSign ((if negative then ['-'] else []) ++ (whole ++ rest)) = (negative, whole ++ rest) := by
  cases negative with
  | true => rfl
  | false =>
      obtain ⟨first, others, rfl, hfirst⟩ := exists_eq_cons_of_isDigits hdigits
      exact takeSign_of_isDigit hfirst _

/-- What is spelled by the grammar of numbers is read as what it spells. -/
theorem ofText?_spell (hwhole : isWhole whole = true) (hdigits : IsDigits whole)
    (hfraction : ∀ digits ∈ fraction, IsDigits digits)
    (hexponent : ∀ scale ∈ exponent, IsDigits scale.2) :
    ofText? (spell negative whole fraction exponent) =
      some { negative, whole, fraction
             exponent := exponent.map (fun scale =>
               if scale.1 then -(digitsValue scale.2 : Int) else digitsValue scale.2) } := by
  have hpoint : ∀ c ∈ ((fraction.map ('.' :: ·)).getD [] ++ spellExponent exponent).head?,
      c.isDigit = false := by
    cases fraction with
    | none => exact head?_spellExponent exponent
    | some digits => simp
  obtain ⟨htake, hdrop⟩ := takeWhile_append_of_stop hdigits.2 hpoint
  have hfound : (fraction == some []) = false := by
    refine beq_eq_false_iff_ne.2 (fun hempty => ?_)
    exact (hfraction [] hempty).1 rfl
  unfold ofText?
  simp only [spell, takeSign_spell hdigits, htake, hdrop, takeFraction_spell hfraction, hwhole,
    hfound, Bool.not_true, Bool.or_false, Bool.false_eq_true, if_false]
  cases exponent with
  | none => rfl
  | some scale =>
      have hscale := exponent?_of_isDigits scale.1 (hexponent scale rfl)
      simp only [spellExponent, Option.map_some, Option.getD_some, beq_self_eq_true, Bool.true_or,
        if_true, hscale]
      rfl

/-- What is spelled by the grammar of numbers is one token. -/
structure Spells (text : List Char) (numeral : Numeral) : Prop where
  ofText? : ofText? text = some numeral
  chars : ∀ c ∈ text, isNumberChar c = true
  head : ∃ first rest, text = first :: rest ∧ (first = '-' ∨ first.isDigit = true)

theorem exists_spells_spell (negative : Bool) (hwhole : isWhole whole = true)
    (hdigits : IsDigits whole) (hfraction : ∀ digits ∈ fraction, IsDigits digits)
    (hexponent : ∀ scale ∈ exponent, IsDigits scale.2) :
    ∃ numeral, Spells (spell negative whole fraction exponent) numeral := by
  refine ⟨_, ofText?_spell hwhole hdigits hfraction hexponent, ?_, ?_⟩
  · have hnumber : ∀ {digits : List Char}, IsDigits digits → ∀ c ∈ digits,
        isNumberChar c = true := by
      intro digits h c hc
      simp [isNumberChar, h.2 c hc]
    intro c hc
    simp only [spell, spellExponent, List.mem_append] at hc
    rcases hc with hc | hc | hc | hc
    · cases negative with
      | true => obtain rfl := List.mem_singleton.1 hc; rfl
      | false => exact absurd hc (List.not_mem_nil)
    · exact hnumber hdigits c hc
    · cases fraction with
      | none => exact absurd hc (List.not_mem_nil)
      | some digits =>
          rcases List.mem_cons.1 hc with rfl | hc
          · rfl
          · exact hnumber (hfraction digits rfl) c hc
    · cases exponent with
      | none => exact absurd hc (List.not_mem_nil)
      | some scale =>
          simp only [Option.map_some, Option.getD_some, List.mem_cons] at hc
          rcases hc with rfl | rfl | hc
          · rfl
          · cases scale.1 <;> rfl
          · exact hnumber (hexponent scale rfl) c hc
  · obtain ⟨first, rest, rfl, hfirst⟩ := exists_eq_cons_of_isDigits hdigits
    cases negative with
    | true => exact ⟨'-', _, rfl, Or.inl rfl⟩
    | false => exact ⟨first, _, rfl, Or.inr hfirst⟩

/-! ## Digits -/

theorem isDigits_toDigits (n : Nat) : IsDigits (Nat.toDigits 10 n) :=
  ⟨Nat.toDigits_ne_nil, fun _ hc => Nat.isDigit_of_mem_toDigits (by decide) (by decide) hc⟩

theorem head?_toDigits_ne_zero {n : Nat} (h : n ≠ 0) : (Nat.toDigits 10 n).head? ≠ some '0' := by
  induction n using Nat.strongRecOn with
  | ind n ih =>
      by_cases hn : n < 10
      · have hdigit : ∀ n < 10, n ≠ 0 → Nat.digitChar n ≠ '0' := by decide
        rw [Nat.toDigits_of_lt_base hn]
        simpa using hdigit n hn h
      · have hfirst := ih (n / 10) (by omega) (by omega)
        rw [Nat.toDigits_of_base_le (by decide) (by omega)]
        cases hdigits : Nat.toDigits 10 (n / 10) with
        | nil => exact absurd hdigits Nat.toDigits_ne_nil
        | cons first rest =>
            rw [hdigits] at hfirst
            exact hfirst

theorem isWhole_of_head?_ne_zero {digits : List Char} (hne : digits ≠ [])
    (h : digits.head? ≠ some '0') : isWhole digits = true := by
  unfold isWhole
  split
  · exact absurd rfl hne
  · exact absurd rfl h
  · rfl

theorem isWhole_toDigits (n : Nat) : isWhole (Nat.toDigits 10 n) = true := by
  by_cases hn : n = 0
  · subst hn
    rfl
  · exact isWhole_of_head?_ne_zero Nat.toDigits_ne_nil (head?_toDigits_ne_zero hn)

theorem digitsValue_toDigits (n : Nat) : digitsValue (Nat.toDigits 10 n) = n := by
  have hvalue := Nat.ofDigitChars_ten_toDigits (n := n)
  rw [Nat.ofDigitChars_eq_foldl] at hvalue
  unfold digitsValue digitValue
  simpa only [Nat.mul_comm] using hvalue

/-! ## Integers -/

theorem le_foldl_digits (digits : List Char) (number : Nat) :
    number ≤ digits.foldl (fun number c => number * 10 + digitValue c) number := by
  induction digits generalizing number with
  | nil => exact Nat.le_refl number
  | cons c rest ih => exact Nat.le_trans (by omega) (ih (number * 10 + digitValue c))

theorem accumulate_of_lt {digits : List Char} {number : Nat}
    (h : digits.foldl (fun number c => number * 10 + digitValue c) number < UInt64.size) :
    accumulate number digits =
      (digits.foldl (fun number c => number * 10 + digitValue c) number, []) := by
  induction digits generalizing number with
  | nil => rfl
  | cons c rest ih =>
      rw [List.foldl_cons] at h ⊢
      rw [accumulate, if_pos (Nat.lt_of_le_of_lt (le_foldl_digits rest _) h), ih h]

theorem foldl_lt_of_accumulate {digits : List Char} {number : Nat} (hnumber : number < UInt64.size)
    (h : (accumulate number digits).2 = []) :
    digits.foldl (fun number c => number * 10 + digitValue c) number < UInt64.size := by
  induction digits generalizing number with
  | nil => exact hnumber
  | cons c rest ih =>
      unfold accumulate at h
      by_cases hfits : number * 10 + digitValue c < UInt64.size
      · simp only [hfits, if_true] at h
        exact ih hfits h
      · simp only [hfits, if_false] at h
        exact absurd h (by simp)

theorem value?_whole_iff (negative : Bool) (n : Nat) :
    value? { negative, whole := Nat.toDigits 10 n } =
        some (.int (if negative then -(n : Int) else n)) ↔
      if negative then 0 < n ∧ n ≤ UInt64.size / 2 else n < UInt64.size := by
  have hvalue := digitsValue_toDigits n
  unfold digitsValue at hvalue
  by_cases hfits : n < UInt64.size
  · have hread : accumulate 0 (Nat.toDigits 10 n) = (n, []) :=
      (accumulate_of_lt (hvalue.symm ▸ hfits)).trans (by rw [hvalue])
    unfold value?
    cases negative with
    | false =>
        simp only [hread, List.isEmpty_nil, Option.isNone_none, Bool.and_self, Bool.not_false,
          Bool.false_eq_true, if_true, if_false, true_iff]
        exact hfits
    | true =>
        simp only [hread, List.isEmpty_nil, Option.isNone_none, Bool.and_self, Bool.not_true,
          Bool.and_false, Bool.false_eq_true, if_false, Bool.true_and, if_true,
          Bool.and_eq_true, decide_eq_true_eq]
        by_cases hrange : 0 < n ∧ n ≤ UInt64.size / 2
        · rw [if_pos hrange]
          exact iff_of_true rfl hrange
        · rw [if_neg hrange]
          exact iff_of_false (by simp) hrange
  · have hleft : (accumulate 0 (Nat.toDigits 10 n)).2.isEmpty = false := by
      refine Bool.eq_false_iff.2 (fun hempty => hfits ?_)
      exact hvalue ▸ foldl_lt_of_accumulate (by decide) (List.isEmpty_iff.1 hempty)
    have hlarge : ¬ if negative then 0 < n ∧ n ≤ UInt64.size / 2 else n < UInt64.size := by
      cases negative with
      | false => exact hfits
      | true =>
          rintro ⟨-, hrange⟩
          exact hfits (Nat.lt_of_le_of_lt hrange (by decide))
    refine iff_of_false ?_ hlarge
    unfold value?
    simp [hleft]

end Numeral

/-- The number that is read where a number was written. -/
def readNumber? (text : List Char) : Option Json := (Numeral.ofText? text).bind Numeral.value?

theorem renderInt_eq_spell (n : Int) : renderInt n =
    Numeral.spell (decide (n < 0)) (Nat.toDigits 10 n.natAbs) none none := by
  unfold renderInt Numeral.spell Numeral.spellExponent
  by_cases hn : n < 0
  · simp [hn]
  · simp [hn]

theorem exists_spells_renderInt (n : Int) : ∃ numeral, Numeral.Spells (renderInt n) numeral := by
  rw [renderInt_eq_spell]
  exact Numeral.exists_spells_spell _ (Numeral.isWhole_toDigits _) (Numeral.isDigits_toDigits _)
    (by simp) (by simp)

theorem readNumber?_int_iff (n : Int) :
    readNumber? (renderInt n) = some (.int n) ↔
      -(UInt64.size / 2 : Nat) ≤ n ∧ n < (UInt64.size : Nat) := by
  have hread : readNumber? (renderInt n) =
      Numeral.value? { negative := decide (n < 0), whole := Nat.toDigits 10 n.natAbs } := by
    unfold readNumber?
    rw [renderInt_eq_spell, Numeral.ofText?_spell (Numeral.isWhole_toDigits _)
      (Numeral.isDigits_toDigits _) (by simp) (by simp)]
    rfl
  have hvalue := Numeral.value?_whole_iff (decide (n < 0)) n.natAbs
  rw [hread]
  by_cases hn : n < 0
  · have hint : -(n.natAbs : Int) = n := by omega
    simp only [hn, decide_true, if_true, hint] at hvalue
    rw [decide_eq_true hn, hvalue]
    omega
  · have hint : (n.natAbs : Int) = n := by omega
    simp only [hn, decide_false, Bool.false_eq_true, if_false, hint] at hvalue
    rw [decide_eq_false hn, hvalue]
    omega

end CrossDoc.Json
