import CrossDoc.Link.XrefUri
import CrossDoc.Proofs.Text.Pieces
import Mathlib.Data.List.Infix
import Mathlib.Data.List.TakeWhile

/-!
# How references into external projects are spelled

After its scheme such a reference has a key, maybe a page, maybe a query behind a question mark and
maybe a fragment behind a hash sign. Each part ends at the first character that can start a later
one, so there is one way to take a text apart, and reading does so (`parseRest_chars`). A text is
read just if it is spelled like that (`parse_eq_ok_iff_spelled`).
-/

namespace CrossDoc.XrefUri

open Text

structure Parts where
  key : String
  page : String
  query : Option String := none
  fragment : Option String := none

namespace Parts

def behind (sign : String) : Option String → String
  | none => ""
  | some part => sign ++ part

def text (parts : Parts) : String :=
  parts.key ++ parts.page ++ behind "?" parts.query ++ behind "#" parts.fragment

/-- No part holds a character that ends it, and there is no blank in any. -/
structure Proper (parts : Parts) : Prop where
  hasKey : parts.key ≠ ""
  key : ∀ c ∈ parts.key.toList, c ≠ '/' ∧ c ≠ '?' ∧ c ≠ '#'
  slash : parts.page = "" ∨ parts.page.toList.head? = some '/'
  page : ∀ c ∈ parts.page.toList, c ≠ '?' ∧ c ≠ '#'
  query : ∀ query, parts.query = some query → '#' ∉ query.toList
  blank : ∀ c ∈ parts.text.toList, isBlank c = false

/-- What a reference says: its key, its page, and its fragment if that is not empty. -/
def meaning (parts : Parts) : XrefUri where
  key := parts.key
  page := parts.page
  identifier := parts.fragment.filter (· ≠ "")

variable {parts : Parts}

theorem toList_behind (sign : Char) (part : Option String) :
    (behind (String.singleton sign) part).toList = announced sign (part.map String.toList) := by
  cases part with
  | none => rfl
  | some part => simp [behind, announced]

theorem toList_text (parts : Parts) : parts.text.toList =
    parts.key.toList ++ parts.page.toList ++ announced '?' (parts.query.map String.toList) ++
      announced '#' (parts.fragment.map String.toList) := by
  have hquery := toList_behind '?' parts.query
  have hfragment := toList_behind '#' parts.fragment
  unfold text
  simp only [String.toList_append]
  rw [← hquery, ← hfragment]
  rfl

end Parts

/-! ## Taking a text apart -/

theorem takeWhile_append_page {key page : List Char} (hkey : '/' ∉ key)
    (hpage : page = [] ∨ page.head? = some '/') :
    (key ++ page).takeWhile (· != '/') = key ∧ (key ++ page).dropWhile (· != '/') = page := by
  have hall : ∀ c ∈ key, (c != '/') = true := fun c hc => by
    simpa using ne_of_mem_of_not_mem hc hkey
  have hstop : page.takeWhile (· != '/') = [] ∧ page.dropWhile (· != '/') = page := by
    cases page with
    | nil => exact ⟨rfl, rfl⟩
    | cons first rest =>
        obtain rfl : first = '/' := by simpa using hpage
        exact ⟨rfl, rfl⟩
  rw [List.takeWhile_append_of_pos hall, List.dropWhile_append_of_pos hall, hstop.1, hstop.2]
  exact ⟨List.append_nil key, rfl⟩

theorem exists_key_page (path : List Char) : ∃ key page : List Char,
    '/' ∉ key ∧ (page = [] ∨ page.head? = some '/') ∧ path = key ++ page := by
  refine ⟨path.takeWhile (· != '/'), path.dropWhile (· != '/'), ?_, ?_,
    List.takeWhile_append_dropWhile.symm⟩
  · intro hmem
    simpa using List.mem_takeWhile_imp hmem
  · cases hdrop : path.dropWhile (· != '/') with
    | nil => exact Or.inl rfl
    | cons first rest =>
        have hfirst := List.head_dropWhile_not (fun c : Char => c != '/') (l := path)
          (by simp [hdrop])
        right
        simpa [hdrop] using hfirst

theorem identifier_eq_filter (fragment : Option (List Char)) :
    (if (fragment.getD []).isEmpty then none else some (String.ofList (fragment.getD []))) =
      (fragment.map String.ofList).filter (· ≠ "") := by
  cases fragment with
  | none => rfl
  | some part =>
      cases part with
      | nil => simp [Option.filter_some]
      | cons first rest => simp [Option.filter_some]

theorem parseRest_chars {key page : List Char} {query : Option (List Char)} (hkey : '/' ∉ key)
    (hpage : page = [] ∨ page.head? = some '/') (hquestion : '?' ∉ key ++ page)
    (hhash : '#' ∉ key ++ page ++ announced '?' query) (fragment : Option (List Char)) :
    parseRest (key ++ page ++ announced '?' query ++ announced '#' fragment) =
      if (key ++ page ++ announced '?' query ++ announced '#' fragment).any isBlank then
        .error .blank
      else if key.isEmpty then .error .noKey
      else
        .ok {
          key := String.ofList key
          page := String.ofList page
          identifier := (fragment.map String.ofList).filter (· ≠ "") } := by
  have hfragment : (cut? '#' (key ++ page ++ announced '?' query ++ announced '#' fragment)).getD
      (key ++ page ++ announced '?' query ++ announced '#' fragment, []) =
      (key ++ page ++ announced '?' query, fragment.getD []) := by
    rw [cut?_append_announced hhash]
    cases fragment with
    | none => simp [announced]
    | some part => rfl
  have hquery : ((cut? '?' (key ++ page ++ announced '?' query)).map (·.1)).getD
      (key ++ page ++ announced '?' query) = key ++ page := by
    rw [cut?_append_announced hquestion]
    cases query with
    | none => simp [announced]
    | some part => rfl
  have hpath := takeWhile_append_page hkey hpage
  unfold parseRest
  simp only [hfragment, hquery, hpath, identifier_eq_filter]

theorem Parts.Proper.notMem {parts : Parts} (h : parts.Proper) :
    '/' ∉ parts.key.toList ∧ '?' ∉ parts.key.toList ++ parts.page.toList ∧
      '#' ∉ parts.key.toList ++ parts.page.toList ++
        announced '?' (parts.query.map String.toList) := by
  refine ⟨fun hmem => (h.key _ hmem).1 rfl, fun hmem => ?_, fun hmem => ?_⟩
  · rcases List.mem_append.1 hmem with hmem | hmem
    · exact (h.key _ hmem).2.1 rfl
    · exact (h.page _ hmem).1 rfl
  · rcases List.mem_append.1 hmem with hmem | hmem
    · rcases List.mem_append.1 hmem with hmem | hmem
      · exact (h.key _ hmem).2.2 rfl
      · exact (h.page _ hmem).2 rfl
    · cases hquery : parts.query with
      | none => simp [announced, hquery] at hmem
      | some query => exact h.query query hquery (by simpa [announced, hquery] using hmem)

theorem parseRest_text {parts : Parts} (h : parts.Proper) :
    parseRest parts.text.toList = .ok parts.meaning := by
  obtain ⟨hkey, hquestion, hhash⟩ := h.notMem
  have hblank : parts.text.toList.any isBlank = false := by simpa using h.blank
  have hnonempty : parts.key.toList.isEmpty = false := by simpa using h.hasKey
  rw [Parts.toList_text] at hblank ⊢
  rw [parseRest_chars hkey (by simpa using h.slash) hquestion hhash, hblank, hnonempty]
  simp [Parts.meaning, Function.comp_def]

theorem exists_parts_of_parseRest {rest : List Char} {parsed : XrefUri}
    (h : parseRest rest = .ok parsed) :
    ∃ parts : Parts, parts.Proper ∧ rest = parts.text.toList ∧ parsed = parts.meaning := by
  obtain ⟨before, fragment, hhash, rfl⟩ := exists_eq_append_announced '#' rest
  obtain ⟨path, query, hquestion, rfl⟩ := exists_eq_append_announced '?' before
  obtain ⟨key, page, hkey, hpage, rfl⟩ := exists_key_page path
  let parts : Parts :=
    { key := String.ofList key
      page := String.ofList page
      query := query.map String.ofList
      fragment := fragment.map String.ofList }
  have htext : parts.text.toList =
      key ++ page ++ announced '?' query ++ announced '#' fragment := by
    rw [Parts.toList_text]
    simp [parts, Function.comp_def]
  rw [parseRest_chars hkey hpage hquestion hhash] at h
  split at h
  · simp at h
  · rename_i hblank
    split at h
    · simp at h
    · rename_i hnonempty
      refine ⟨parts, ?_, htext.symm, (Except.ok.inj h).symm⟩
      simp only [List.mem_append, not_or] at hquestion hhash
      exact {
        hasKey := by simpa [parts] using hnonempty
        key := fun c hc => by
          have hc : c ∈ key := by simpa [parts] using hc
          exact ⟨ne_of_mem_of_not_mem hc hkey, ne_of_mem_of_not_mem hc hquestion.1,
            ne_of_mem_of_not_mem hc hhash.1.1⟩
        slash := by simpa [parts] using hpage
        page := fun c hc => by
          have hc : c ∈ page := by simpa [parts] using hc
          exact ⟨ne_of_mem_of_not_mem hc hquestion.2, ne_of_mem_of_not_mem hc hhash.1.2⟩
        query := fun part hpart => by
          obtain ⟨part, rfl, rfl⟩ := Option.map_eq_some_iff.1 hpart
          simpa [announced] using hhash.2
        blank := by
          rw [htext]
          intro c hc
          exact Bool.eq_false_iff.2 (fun hc' => hblank (List.any_eq_true.2 ⟨c, hc, hc'⟩)) }

/-! ## Reading -/

variable {uri start text : String} {rest : List Char} {parsed : XrefUri}

theorem after?_eq_some_iff : after? start text = some rest ↔ start.toList ++ rest = text.toList :=
  List.isPrefixOf?_eq_some_iff_append_eq

theorem parse_scheme_append (text : String) : parse (scheme ++ text) = parseRest text.toList := by
  have hrest : after? scheme (scheme ++ text) = some text.toList :=
    after?_eq_some_iff.2 String.toList_append.symm
  unfold parse
  rw [hrest]

theorem exists_parts_of_parse (h : parse uri = .ok parsed) :
    ∃ parts : Parts, parts.Proper ∧ uri = scheme ++ parts.text ∧ parsed = parts.meaning := by
  unfold parse at h
  cases hrest : after? scheme uri with
  | none => simp [hrest] at h
  | some rest =>
      rw [hrest] at h
      obtain ⟨parts, hproper, rfl, hparsed⟩ := exists_parts_of_parseRest h
      refine ⟨parts, hproper, ?_, hparsed⟩
      rw [← String.toList_inj, String.toList_append]
      exact (after?_eq_some_iff.1 hrest).symm

def parts (parsed : XrefUri) : Parts where
  key := parsed.key
  page := parsed.page
  fragment := parsed.identifier

def render (parsed : XrefUri) : String := scheme ++ parsed.parts.text

/--
A text is read just if it is the scheme and then proper parts, and what is read is what they mean.
So a reference that is written is read back just if its parts are proper and it has no empty
fragment.
-/
theorem parse_eq_ok_iff_spelled (uri : String) (parsed : XrefUri) :
    (parse uri = .ok parsed ↔
      ∃ parts : Parts, parts.Proper ∧ uri = scheme ++ parts.text ∧ parsed = parts.meaning) ∧
    (parse parsed.render = .ok parsed ↔ parsed.parts.Proper ∧ parsed.identifier ≠ some "") := by
  have hread : ∀ parts : Parts, parts.Proper → parse (scheme ++ parts.text) = .ok parts.meaning :=
    fun parts hproper => (parse_scheme_append parts.text).trans (parseRest_text hproper)
  refine ⟨⟨exists_parts_of_parse, ?_⟩, fun h => ?_, ?_⟩
  · rintro ⟨parts, hproper, rfl, rfl⟩
    exact hread parts hproper
  · obtain ⟨parts, hproper, htext, rfl⟩ := exists_parts_of_parse h
    have hsame : parts.meaning.parts.text = parts.text := by
      simpa [render, ← String.toList_inj] using htext
    refine ⟨?_, fun hempty => by simp [Parts.meaning, Option.filter_eq_some_iff] at hempty⟩
    exact { hproper with
      query := fun query hquery => by simp [XrefUri.parts] at hquery
      blank := hsame ▸ hproper.blank }
  · rintro ⟨hproper, hidentifier⟩
    have hkept : parsed.identifier.filter (· ≠ "") = parsed.identifier :=
      by cases h : parsed.identifier with
      | none => rfl
      | some identifier => simp_all [Option.filter_some]
    rw [render, hread parsed.parts hproper, Parts.meaning, parts, hkept]

example : parse "xref:docs/guide?from=/a#b/c?d#e" =
    .ok { key := "docs", page := "/guide", identifier := some "b/c?d#e" } := by decide +kernel

end CrossDoc.XrefUri
