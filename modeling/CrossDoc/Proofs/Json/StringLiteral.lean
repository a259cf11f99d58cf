import CrossDoc.Json.Printer
import CrossDoc.Json.Token

/-!
# Strings that are written

Each character of a string is written so that it is read as one part (`read?_escaped`), and the
parts make up the string again (`text?_parts`). The quote after a string ends it, whatever follows.
-/

namespace CrossDoc.Json.StringLiteral

/-- The characters that are escaped by a letter or sign of their own. -/
def lettered : List Char :=
  ['"', '\\', Char.ofNat 0x08, Char.ofNat 0x0C, '\n', '\r', '\t']

def part (c : Char) : StringPart :=
  if c ∉ lettered ∧ c.toNat < 0x20 then .unit c.toNat else .char c

def parts (s : String) : StringLiteral := s.toList.map part

/-! ## Reading what is written -/

theorem read?_letter {letter c : Char} (h : letter ≠ 'u') (hletter : escapedChar? letter = some c)
    (rest : List Char) :
    read? ('\\' :: letter :: rest) = (read? rest).map (consPart (.char c)) := by
  rw [read?]
  · rw [hletter]
    rfl
  · rintro _ _ _ _ _ rfl
    exact absurd rfl h

theorem read?_plain {c : Char} (hquote : c ≠ '"') (hbackslash : c ≠ '\\')
    (hcontrol : ¬ c.toNat < 0x20) (rest : List Char) :
    read? (c :: rest) = (read? rest).map (consPart (.char c)) := by
  rw [read?]
  · rw [if_neg hcontrol]
  · exact fun h => hquote h
  · exact fun _ _ _ _ _ h => absurd h hbackslash
  · exact fun _ _ h => absurd h hbackslash

theorem hexDigits_of_lt : ∀ n < 0x20, (if n < 0x10 then ['0'] else []) ++ Text.hexDigits n =
    [Nat.digitChar (n / 16), Nat.digitChar (n % 16)] := by
  decide

theorem hexUnit?_of_lt : ∀ n < 0x20,
    hexUnit? '0' '0' (Nat.digitChar (n / 16)) (Nat.digitChar (n % 16)) = some n := by
  decide

theorem escaped_of_notMem {c : Char} (h : c ∉ lettered) : escaped c =
    if c.toNat < 0x20 then
      ['\\', 'u', '0', '0', Nat.digitChar (c.toNat / 16), Nat.digitChar (c.toNat % 16)]
    else [c] := by
  simp only [lettered, List.mem_cons, List.not_mem_nil, or_false, not_or] at h
  obtain ⟨hquote, hbackslash, hback, hfeed, hline, hreturn, htab⟩ := h
  have hback' : c.toNat ≠ 0x08 := fun hsame => hback (Char.toNat_inj.1 hsame)
  have hfeed' : c.toNat ≠ 0x0C := fun hsame => hfeed (Char.toNat_inj.1 hsame)
  unfold escaped
  rw [if_neg hquote, if_neg hbackslash, if_neg hback', if_neg hfeed', if_neg hline, if_neg hreturn,
    if_neg htab]
  by_cases hcontrol : c.toNat < 0x20
  · rw [if_pos hcontrol, if_pos hcontrol, List.append_assoc, hexDigits_of_lt c.toNat hcontrol]
    rfl
  · rw [if_neg hcontrol, if_neg hcontrol]

theorem read?_escaped (c : Char) (rest : List Char) :
    read? (escaped c ++ rest) = (read? rest).map (consPart (part c)) := by
  unfold part
  by_cases hlettered : c ∈ lettered
  · rw [if_neg (fun h => h.1 hlettered)]
    simp only [lettered, List.mem_cons, List.not_mem_nil, or_false] at hlettered
    rcases hlettered with rfl | rfl | rfl | rfl | rfl | rfl | rfl
    all_goals exact read?_letter (by decide) rfl rest
  · rw [escaped_of_notMem hlettered]
    by_cases hcontrol : c.toNat < 0x20
    · rw [if_pos hcontrol, if_pos ⟨hlettered, hcontrol⟩]
      simp only [List.cons_append, List.nil_append, read?, hexUnit?_of_lt c.toNat hcontrol,
        Option.bind_some]
    · rw [if_neg hcontrol, if_neg (fun h => hcontrol h.2)]
      refine read?_plain ?_ ?_ hcontrol rest
      · exact fun hquote => hlettered (hquote ▸ by decide)
      · exact fun hbackslash => hlettered (hbackslash ▸ by decide)

/-- A string is read up to its quote. -/
theorem read?_parts (s : String) (rest : List Char) :
    read? (s.toList.flatMap escaped ++ '"' :: rest) = some (parts s, rest) := by
  unfold parts
  induction s.toList with
  | nil => rfl
  | cons c others ih =>
      rw [List.flatMap_cons, List.append_assoc, read?_escaped, ih]
      rfl

/-! ## Putting the parts together -/

theorem chars?_unit {n : Nat} (h : n < 0x20) (rest : StringLiteral) :
    chars? (.unit n :: rest) = (chars? rest).map (Char.ofNat n :: ·) := by
  have hhigh : isHigh n = false := by
    simp only [isHigh, Bool.and_eq_false_iff, decide_eq_false_iff_not]
    omega
  have hlow : isLow n = false := by
    simp only [isLow, Bool.and_eq_false_iff, decide_eq_false_iff_not]
    omega
  match rest with
  | .unit low :: rest => rw [chars?]; simp [hhigh, hlow]
  | [] => simp [chars?, hhigh, hlow]
  | .char c :: rest => simp [chars?, hhigh, hlow]

theorem chars?_part (c : Char) (rest : StringLiteral) :
    chars? (part c :: rest) = (chars? rest).map (c :: ·) := by
  unfold part
  by_cases hunit : c ∉ lettered ∧ c.toNat < 0x20
  · rw [if_pos hunit, chars?_unit hunit.2, Char.ofNat_toNat]
  · rw [if_neg hunit, chars?]

theorem text?_parts (s : String) : (parts s).text? = some s := by
  have hchars : ∀ chars : List Char, chars? (chars.map part) = some chars := by
    intro chars
    induction chars with
    | nil => rfl
    | cons c rest ih => rw [List.map_cons, chars?_part, ih, Option.map_some]
  unfold text? parts
  rw [hchars, Option.map_some, String.ofList_toList]

end CrossDoc.Json.StringLiteral
