import CrossDoc.Text.Basic
import Mathlib.Data.List.DropRight

/-!
# Cutting, splitting, joining and trimming

A text is cut at the first occurrence of a character (`cut?_eq_some_iff`). Splitting a text at every
occurrence and joining the pieces again gives the text (`join_splitAt`), and pieces without the
character come back from their join (`splitAt_join`). A trimmed text stays as it is when it is
trimmed again (`trim_trim`).
-/

namespace CrossDoc.Text

variable {c : Char} {text before after : List Char}

/-! ## Cutting -/

theorem cut?_cons_of_ne {first : Char} (h : first ≠ c) (rest : List Char) :
    cut? c (first :: rest) = (cut? c rest).map (fun parts => (first :: parts.1, parts.2)) := by
  rw [cut?, if_neg (by simpa using h)]

theorem cut?_eq_some_iff :
    cut? c text = some (before, after) ↔ c ∉ before ∧ text = before ++ c :: after := by
  induction text generalizing before with
  | nil => simp [cut?]
  | cons first rest ih =>
      by_cases hfirst : first = c
      · subst hfirst
        cases before with
        | nil => simp [cut?]
        | cons head tail =>
            simp only [cut?, beq_self_eq_true, if_true, Option.some.injEq, Prod.mk.injEq,
              List.nil_eq, reduceCtorEq, false_and, List.mem_cons, not_or, List.cons_append,
              List.cons.injEq, false_iff, not_and]
            rintro ⟨hne, -⟩ hhead
            exact absurd hhead hne
      · rw [cut?_cons_of_ne hfirst]
        cases before with
        | nil =>
            simp only [Option.map_eq_some_iff, Prod.mk.injEq, reduceCtorEq, false_and, and_false,
              exists_false, List.not_mem_nil, not_false_eq_true, List.nil_append, List.cons.injEq,
              true_and, false_iff, not_and]
            intro hhead
            exact absurd hhead hfirst
        | cons head tail =>
            simp only [Option.map_eq_some_iff, Prod.exists, Prod.mk.injEq, List.cons.injEq,
              List.mem_cons, not_or, List.cons_append]
            constructor
            · rintro ⟨tail', after', hcut, ⟨rfl, rfl⟩, rfl⟩
              obtain ⟨htail, hrest⟩ := ih.1 hcut
              exact ⟨⟨fun hsame => hfirst hsame.symm, htail⟩, rfl, hrest⟩
            · rintro ⟨⟨-, htail⟩, rfl, hrest⟩
              exact ⟨tail, after, ih.2 ⟨htail, hrest⟩, ⟨rfl, rfl⟩, rfl⟩

theorem cut?_eq_none_iff : cut? c text = none ↔ c ∉ text := by
  constructor
  · intro h hmem
    obtain ⟨before, after, hbefore, htext⟩ := List.eq_append_cons_of_mem hmem
    have hcut := cut?_eq_some_iff.2 ⟨htext, hbefore⟩
    rw [h] at hcut
    exact absurd hcut (by simp)
  · intro h
    cases hcut : cut? c text with
    | none => rfl
    | some parts =>
        obtain ⟨-, htext⟩ := cut?_eq_some_iff.1 hcut
        exact absurd (by simp [htext]) h

/-- A part of a text behind the character that announces it, or nothing. -/
def announced (c : Char) : Option (List Char) → List Char
  | none => []
  | some part => c :: part

theorem cut?_append_announced (h : c ∉ before) (part : Option (List Char)) :
    cut? c (before ++ announced c part) = part.map (fun part => (before, part)) := by
  cases part with
  | none => simpa [announced, cut?_eq_none_iff] using h
  | some part => exact cut?_eq_some_iff.2 ⟨h, rfl⟩

theorem exists_eq_append_announced (c : Char) (text : List Char) :
    ∃ before part, c ∉ before ∧ text = before ++ announced c part := by
  cases hcut : cut? c text with
  | none => exact ⟨text, none, cut?_eq_none_iff.1 hcut, by simp [announced]⟩
  | some parts =>
      obtain ⟨hbefore, htext⟩ := cut?_eq_some_iff.1 hcut
      exact ⟨parts.1, some parts.2, hbefore, htext⟩

/-! ## Splitting and joining -/

theorem splitAt_eq_splitOnP (p : Char → Bool) (text : List Char) :
    splitAt p text = text.splitOnP p := by
  induction text with
  | nil => rfl
  | cons first rest ih =>
      rw [splitAt, List.splitOnP_cons_eq_if_modifyHead, ih]
      by_cases hfirst : p first = true
      · rw [if_pos hfirst, if_pos hfirst]
      · rw [if_neg hfirst, if_neg hfirst]
        cases hpieces : rest.splitOnP p with
        | nil => exact absurd hpieces (List.splitOnP_ne_nil p rest)
        | cons piece others => rfl

theorem splitAt_ne_nil (p : Char → Bool) (text : List Char) : splitAt p text ≠ [] := by
  rw [splitAt_eq_splitOnP]
  exact List.splitOnP_ne_nil p text

theorem join_eq_intercalate (separator : List Char) (pieces : List (List Char)) :
    join separator pieces = separator.intercalate pieces := by
  induction pieces with
  | nil => rfl
  | cons piece rest ih =>
      cases rest with
      | nil => simp [join]
      | cons next others =>
          rw [join, ih, List.intercalate_cons_cons]
          simp

theorem join_splitAt (c : Char) (text : List Char) :
    join [c] (splitAt (· == c) text) = text := by
  rw [join_eq_intercalate, splitAt_eq_splitOnP]
  exact List.intercalate_splitOn c

theorem splitAt_join {pieces : List (List Char)} (hne : pieces ≠ [])
    (h : ∀ piece ∈ pieces, c ∉ piece) : splitAt (· == c) (join [c] pieces) = pieces := by
  rw [join_eq_intercalate, splitAt_eq_splitOnP]
  exact List.splitOn_intercalate c h hne

theorem splitAt_append_cons (c : Char) (text rest : List Char) :
    splitAt (· == c) (text ++ c :: rest) = splitAt (· == c) text ++ splitAt (· == c) rest := by
  rw [splitAt_eq_splitOnP, splitAt_eq_splitOnP, splitAt_eq_splitOnP]
  exact List.splitOnP_append_cons text rest (beq_self_eq_true c)

theorem notMem_of_mem_splitAt {piece : List Char} (h : piece ∈ splitAt (· == c) text) :
    c ∉ piece := by
  induction text generalizing piece with
  | nil =>
      obtain rfl := List.mem_singleton.1 h
      exact List.not_mem_nil
  | cons first rest ih =>
      rw [splitAt] at h
      by_cases hfirst : first = c
      · rw [if_pos (by simpa using hfirst)] at h
        rcases List.mem_cons.1 h with rfl | hrest
        · exact List.not_mem_nil
        · exact ih hrest
      · rw [if_neg (by simpa using hfirst)] at h
        cases hpieces : splitAt (· == c) rest with
        | nil => exact absurd hpieces (splitAt_ne_nil _ rest)
        | cons word others =>
            rw [hpieces] at h ih
            rcases List.mem_cons.1 h with rfl | hothers
            · simpa [Ne.symm hfirst] using ih List.mem_cons_self
            · exact ih (List.mem_cons_of_mem word hothers)

theorem flatMap_cons_eq_join {pieces : List (List Char)} (hne : pieces ≠ []) :
    pieces.flatMap (c :: ·) = c :: join [c] pieces := by
  induction pieces with
  | nil => exact absurd rfl hne
  | cons piece rest ih =>
      cases rest with
      | nil => simp [join]
      | cons next others =>
          have hjoin : join [c] (piece :: next :: others) =
              piece ++ [c] ++ join [c] (next :: others) := rfl
          rw [List.flatMap_cons, ih (List.cons_ne_nil next others), hjoin]
          simp

/-! ## Trimming -/

theorem trim_eq_rdropWhile (text : List Char) :
    trim text = (text.dropWhile isBlank).rdropWhile isBlank := rfl

theorem dropWhile_isBlank_trim (text : List Char) : (trim text).dropWhile isBlank = trim text := by
  rw [List.dropWhile_eq_self_iff]
  intro hlength
  have hstart : trim text <+: text.dropWhile isBlank := List.rdropWhile_prefix isBlank _
  rw [hstart.getElem hlength]
  exact List.dropWhile_get_zero_not isBlank text (hlength.trans_le hstart.length_le)

@[simp] theorem trim_trim (text : List Char) : trim (trim text) = trim text := by
  rw [trim_eq_rdropWhile (trim text), dropWhile_isBlank_trim, trim_eq_rdropWhile text,
    List.rdropWhile_idempotent]

theorem trim_word_append_eq_self_iff {first blank : Char} (hfirst : isBlank first = false)
    (hblank : isBlank blank = true) (middle number : List Char) :
    trim (first :: (middle ++ blank :: number)) = first :: (middle ++ blank :: number) ↔
      ∃ last, number.getLast? = some last ∧ isBlank last = false := by
  have hstart : (first :: (middle ++ blank :: number)).dropWhile isBlank =
      first :: (middle ++ blank :: number) := by
    rw [List.dropWhile_cons, hfirst]
    rfl
  rw [trim_eq_rdropWhile, hstart, List.rdropWhile_eq_self_iff]
  cases number using List.reverseRecOn with
  | nil => simp [hblank]
  | append_singleton init last => simp

end CrossDoc.Text
