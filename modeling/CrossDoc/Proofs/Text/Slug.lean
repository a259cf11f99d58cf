import CrossDoc.CommandLine.Slug
import CrossDoc.Target.PageTargets
import Mathlib.Data.List.Basic

/-!
# Slugs of slugs

Where the slug of a slug is that slug (`LawfulSlugger`), two identifiers have the same anchor just
if they have the same slug (`Label.anchor_eq_iff`). The slugs of the program are such: they look
like lower-case ASCII letters and digits with single dashes between them (`IsDashed`), and a text
that looks like that is its own slug.
-/

namespace CrossDoc

/-- A slug is spelled as it is. -/
class Text.LawfulSlugger [Text.Slugger] : Prop where
  slug_slug (text : List Char) : Text.slug (Text.slug text) = Text.slug text

/-! ## Anchors -/

namespace Label

variable [Text.Slugger] {identifier other : String}

theorem anchor_of_slug_eq_nil (h : Text.slug identifier.toList = []) :
    anchor identifier = identifier := by
  unfold anchor
  rw [h]

theorem toList_anchor_of_slug_ne_nil (h : Text.slug identifier.toList ≠ []) :
    (anchor identifier).toList = Text.slug identifier.toList := by
  unfold anchor
  split
  · rename_i hnil
    exact absurd hnil h
  · exact String.toList_ofList

theorem anchor_ne_of_slug_eq_nil [Text.LawfulSlugger] (h : Text.slug identifier.toList = [])
    (hother : Text.slug other.toList ≠ []) : anchor identifier ≠ anchor other := by
  intro hsame
  rw [anchor_of_slug_eq_nil h] at hsame
  have hslug := toList_anchor_of_slug_ne_nil hother
  rw [← hsame] at hslug
  rw [hslug, Text.LawfulSlugger.slug_slug] at h
  exact hother h

theorem anchor_eq_iff [Text.LawfulSlugger] (hne : identifier ≠ other) :
    anchor identifier = anchor other ↔ Text.slug identifier.toList ≠ [] ∧
      Text.slug identifier.toList = Text.slug other.toList := by
  by_cases hslug : Text.slug identifier.toList = []
  · refine iff_of_false ?_ fun h => h.1 hslug
    by_cases hother : Text.slug other.toList = []
    · rw [anchor_of_slug_eq_nil hslug, anchor_of_slug_eq_nil hother]
      exact hne
    · exact anchor_ne_of_slug_eq_nil hslug hother
  · by_cases hother : Text.slug other.toList = []
    · refine iff_of_false (anchor_ne_of_slug_eq_nil hother hslug).symm ?_
      rintro ⟨-, hsame⟩
      exact hslug (hsame.trans hother)
    · rw [← String.toList_inj, toList_anchor_of_slug_ne_nil hslug,
        toList_anchor_of_slug_ne_nil hother]
      exact (and_iff_right hslug).symm

end Label

/-! ## The slugs of the program -/

namespace Text

/--
Lower-case letters, digits and dashes, no dash next to another. `dashed` says that no dash may stand
at the front either.
-/
def IsDashed (dashed : Bool) : List Char → Prop
  | [] => True
  | c :: rest =>
    if c = '-' then dashed = false ∧ IsDashed true rest
    else (c.isAlphanum = true ∧ c.toLower = c) ∧ IsDashed false rest

variable {text rest : List Char} {dashed : Bool} {c : Char}

theorem isDashed_cons_of_ne (h : c ≠ '-') : IsDashed dashed (c :: rest) ↔
    (c.isAlphanum = true ∧ c.toLower = c) ∧ IsDashed false rest := by
  rw [IsDashed, if_neg h]

theorem isDashed_dash : IsDashed dashed ('-' :: rest) ↔ dashed = false ∧ IsDashed true rest := by
  rw [IsDashed, if_pos rfl]

/-! ## Letters and digits -/

theorem toNat_lt_of_isAlphanum (h : c.isAlphanum = true) : c.toNat < 128 := by
  have hranges : (decide ('A'.val ≤ c.val ∧ c.val ≤ 'Z'.val) ||
      (decide ('a'.val ≤ c.val) && decide (c.val ≤ 'z'.val)) ||
      (decide ('0'.val ≤ c.val) && decide (c.val ≤ '9'.val))) = true := h
  simp only [Bool.or_eq_true, Bool.and_eq_true, decide_eq_true_eq,
    UInt32.le_iff_toNat_le] at hranges
  have hvalue : c.toNat = c.val.toNat := rfl
  have hupper : 'Z'.val.toNat = 90 := rfl
  have hlower : 'z'.val.toNat = 122 := rfl
  have hdigit : '9'.val.toNat = 57 := rfl
  omega

theorem toLower_of_isAlphanum (h : c.isAlphanum = true) :
    c.toLower.isAlphanum = true ∧ c.toLower.toLower = c.toLower := by
  have hascii : ∀ n < 128, (Char.ofNat n).isAlphanum = true →
      (Char.ofNat n).toLower.isAlphanum = true ∧
        (Char.ofNat n).toLower.toLower = (Char.ofNat n).toLower := by
    decide
  have hchar := hascii c.toNat (toNat_lt_of_isAlphanum h)
  rw [Char.ofNat_toNat] at hchar
  exact hchar h

theorem spelling_of_isAlphanum (h : c.isAlphanum = true) : spelling c = [c] := by
  rw [spelling, if_pos (toNat_lt_of_isAlphanum h)]

theorem ne_dash_of_isAlphanum (h : c.isAlphanum = true) : c ≠ '-' := by
  rintro rfl
  exact absurd h (by decide)

/-! ## What slugs look like -/

theorem isDashed_dashes (dashed : Bool) (text : List Char) :
    IsDashed dashed (dashes dashed text) := by
  induction text generalizing dashed with
  | nil => trivial
  | cons c rest ih =>
      unfold dashes
      split_ifs with hletter hdashed
      · have hlower := toLower_of_isAlphanum hletter
        rw [isDashed_cons_of_ne (ne_dash_of_isAlphanum hlower.1)]
        exact ⟨hlower, ih false⟩
      · rw [hdashed]
        exact ih true
      · rw [isDashed_dash]
        exact ⟨by simpa using hdashed, ih true⟩

theorem dashes_of_isDashed (h : IsDashed dashed text) : dashes dashed text = text := by
  induction text generalizing dashed with
  | nil => rfl
  | cons c rest ih =>
      by_cases hdash : c = '-'
      · subst hdash
        obtain ⟨rfl, hrest⟩ := isDashed_dash.1 h
        have hother : ('-' : Char).isAlphanum = false := by decide
        rw [dashes, if_neg (by simp [hother]), if_neg (by simp), ih hrest]
      · obtain ⟨⟨hletter, hlower⟩, hrest⟩ := (isDashed_cons_of_ne hdash).1 h
        rw [dashes, if_pos hletter, hlower, ih hrest]

theorem flatMap_spelling_of_isDashed (h : IsDashed dashed text) :
    text.flatMap spelling = text := by
  induction text generalizing dashed with
  | nil => rfl
  | cons c rest ih =>
      rw [List.flatMap_cons]
      by_cases hdash : c = '-'
      · subst hdash
        rw [ih (isDashed_dash.1 h).2]
        rfl
      · obtain ⟨⟨hletter, -⟩, hrest⟩ := (isDashed_cons_of_ne hdash).1 h
        rw [spelling_of_isAlphanum hletter, ih hrest]
        rfl

theorem isDashed_of_append (h : IsDashed dashed (text ++ rest)) : IsDashed dashed text := by
  induction text generalizing dashed with
  | nil => trivial
  | cons c others ih =>
      rw [List.cons_append] at h
      by_cases hdash : c = '-'
      · subst hdash
        obtain ⟨hfront, hothers⟩ := isDashed_dash.1 h
        exact isDashed_dash.2 ⟨hfront, ih hothers⟩
      · obtain ⟨hletter, hothers⟩ := (isDashed_cons_of_ne hdash).1 h
        exact (isDashed_cons_of_ne hdash).2 ⟨hletter, ih hothers⟩

theorem not_isDashed_append_dashes : ¬ IsDashed dashed (text ++ ['-', '-']) := by
  intro h
  induction text generalizing dashed with
  | nil =>
      obtain ⟨-, hrest⟩ := isDashed_dash.1 h
      exact absurd (isDashed_dash.1 hrest).1 (by simp)
  | cons c others ih =>
      rw [List.cons_append] at h
      by_cases hdash : c = '-'
      · subst hdash
        exact ih (isDashed_dash.1 h).2
      · exact ih ((isDashed_cons_of_ne hdash).1 h).2

theorem dropLastDash_cases (text : List Char) :
    dropLastDash text = text ∧ text.getLast? ≠ some '-' ∨ text = dropLastDash text ++ ['-'] := by
  unfold dropLastDash
  by_cases hlast : text.getLast? = some '-'
  · rw [if_pos hlast]
    exact Or.inr (List.dropLast_append_getLast? '-' hlast).symm
  · rw [if_neg hlast]
    exact Or.inl ⟨rfl, hlast⟩

theorem dropLastDash_dropLastDash (h : IsDashed dashed text) :
    dropLastDash (dropLastDash text) = dropLastDash text := by
  obtain ⟨hsame, -⟩ | hdash := dropLastDash_cases text
  · rw [hsame, hsame]
  · obtain ⟨hsame, -⟩ | hagain := dropLastDash_cases (dropLastDash text)
    · exact hsame
    · rw [hdash, hagain, List.append_assoc] at h
      exact absurd h not_isDashed_append_dashes

theorem isDashed_dropLastDash (h : IsDashed dashed text) : IsDashed dashed (dropLastDash text) := by
  obtain ⟨hsame, -⟩ | hdash := dropLastDash_cases text
  · rwa [hsame]
  · rw [hdash] at h
    exact isDashed_of_append h

instance : LawfulSlugger where
  slug_slug text := by
    have hdashes := isDashed_dashes true (text.flatMap spelling)
    have hslug : IsDashed true (slug text) := isDashed_dropLastDash hdashes
    calc
      slug (slug text) = dropLastDash (dashes true ((slug text).flatMap spelling)) := rfl
      _ = dropLastDash (dashes true (slug text)) := by rw [flatMap_spelling_of_isDashed hslug]
      _ = dropLastDash (slug text) := by rw [dashes_of_isDashed hslug]
      _ = slug text := dropLastDash_dropLastDash hdashes

end Text

end CrossDoc
