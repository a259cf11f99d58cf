import CrossDoc.CommandLine.Slug
import CrossDoc.Proofs.CrossReference
import CrossDoc.Proofs.Target.Url

/-!
# Looking up on all pages

A look-up that names no page goes through the pages in the order of their paths. Each answers from
its identifiers, or else from its anchors, before the next is asked. So a target that is registered
under an identifier is found just if no page before its own has the identifier as an anchor
(`resolve?_finds_registered_iff`).
-/

namespace CrossDoc

/-! ## One page -/

namespace PageTargets

variable {page : PageTargets} {identifier : String} {target : Target}

theorem IsKeyed.withFileTarget [Text.Slugger] (h : page.IsKeyed) (label : String)
    (title : Option String) : (page.withFileTarget label title).IsKeyed := by
  unfold PageTargets.withFileTarget
  cases Label.identifier? label with
  | none => exact h
  | some own =>
      intro identifier target htarget
      simp only [SortedMap.get?_insert] at htarget
      by_cases hown : identifier = own
      · rw [if_pos hown] at htarget
        have hsame := Option.some.inj htarget
        rw [← hsame, hown]
      · rw [if_neg hown] at htarget
        exact h identifier target htarget

theorem Reachable.isKeyed [Text.Slugger] (h : page.Reachable) : page.IsKeyed := by
  induction h with
  | start file url numbering =>
      intro identifier target htarget
      rw [SortedMap.get?_empty] at htarget
      exact absurd htarget (by simp)
  | withFileTarget label title _ ih => exact ih.withFileTarget label title
  | enumerate tree _ ih => exact Enumeration.isKeyed_walk ih tree

theorem contains_iff_exists_get? :
    page.contains identifier = true ↔ ∃ target, page.targets.get? identifier = some target :=
  Option.isSome_iff_exists

theorem resolve?_of_contains_eq_false (h : page.contains identifier = false) :
    page.resolve? identifier = page.withAnchor? identifier := by
  have hnone : page.targets.get? identifier = none := by
    simpa [contains, SortedMap.contains] using h
  unfold resolve?
  rw [hnone]
  rfl

theorem htmlId_of_withAnchor? (h : page.withAnchor? identifier = some target) :
    target.htmlId = identifier := by
  simpa using List.find?_some h

theorem identifier_ne_of_contains_eq_false (hkeyed : page.IsKeyed)
    (hcontains : page.contains identifier = false)
    (h : page.resolve? identifier = some target) : target.identifier ≠ identifier := by
  intro hsame
  obtain ⟨key, hkey⟩ := exists_get?_of_resolve? h
  have hregistered : page.targets.get? identifier = some target := by
    rw [← hsame, hkeyed key target hkey]
    exact hkey
  rw [contains_iff_exists_get?.2 ⟨target, hregistered⟩] at hcontains
  exact Bool.noConfusion hcontains

end PageTargets

/-! ## All pages -/

namespace ProjectIndex

variable {index : ProjectIndex} {identifier owner : String} {page : IndexedPage}

/-- The first page, by path, that has a target registered under an identifier. -/
def registrar? (index : ProjectIndex) (identifier : String) : Option (String × IndexedPage) :=
  index.find? (fun _ page => page.targets.contains identifier)

def NoAnchorBefore (index : ProjectIndex) (owner anchor : String) : Prop :=
  ∀ file page, file < owner → index.get? file = some page → page.targets.withAnchor? anchor = none

/--
Where a target is registered under an identifier, a look-up on all pages finds one. This is the
registered target of the first page that has one, and has the identifier itself, just if no page
before that one has the identifier as an anchor. Else it is a target with that anchor, of a page
before.
-/
theorem resolve?_finds_registered_iff [Text.Slugger]
    (hreachable : ∀ file page, index.get? file = some page → page.targets.Reachable)
    (hregistrar : index.registrar? identifier = some (owner, page)) :
    ∃ target file found,
      page.targets.targets.get? identifier = some target ∧ target.identifier = identifier ∧
      index.resolve? identifier none = some (file, found) ∧
      (found.identifier = identifier ↔ index.NoAnchorBefore owner identifier) ∧
      ((file, found) = (owner, target) ↔ index.NoAnchorBefore owner identifier) ∧
      (found.identifier ≠ identifier → file < owner ∧ found.htmlId = identifier) := by
  obtain ⟨hpage, hcontains, hunregistered⟩ := SortedMap.find?_eq_some_iff.1 hregistrar
  obtain ⟨target, htarget⟩ := PageTargets.contains_iff_exists_get?.1 hcontains
  have hkey := (hreachable owner page hpage).isKeyed identifier target htarget
  have hresolves := PageTargets.resolve?_of_get? htarget
  obtain ⟨⟨file, found⟩, hresult⟩ :=
    Option.isSome_iff_exists.1 (isSome_resolve?_none hpage hresolves)
  refine ⟨target, file, found, htarget, hkey, hresult, ?_⟩
  obtain ⟨first, howner, hfound⟩ := resolve?_eq_some_iff.1 hresult
  obtain ⟨hfirst, -, hunanswered⟩ := owner?_none_eq_some_iff.1 howner
  by_cases hbefore : file < owner
  · have hfree := hunregistered file first hbefore hfirst
    have hother := PageTargets.identifier_ne_of_contains_eq_false
      (hreachable file first hfirst).isKeyed hfree hfound
    have hanchor : first.targets.withAnchor? identifier = some found :=
      (PageTargets.resolve?_of_contains_eq_false hfree).symm.trans hfound
    have hsome : ¬ index.NoAnchorBefore owner identifier := by
      intro hnone
      rw [hnone file first hbefore hfirst] at hanchor
      exact absurd hanchor (by simp)
    refine ⟨iff_of_false hother hsome, iff_of_false ?_ hsome, fun _ => ⟨hbefore, ?_⟩⟩
    · intro hsame
      have hfile : file = owner := congrArg Prod.fst hsame
      exact absurd (hfile ▸ hbefore) (String.lt_irrefl owner)
    · exact PageTargets.htmlId_of_withAnchor? hanchor
  · have hafter : ¬ owner < file := by
      intro hlt
      rw [hunanswered owner page hlt hpage] at hresolves
      exact absurd hresolves (by simp)
    have hfile : file = owner :=
      String.le_antisymm (String.not_lt.1 hafter) (String.not_lt.1 hbefore)
    rw [hfile] at hfirst hunanswered ⊢
    have hnone : index.NoAnchorBefore owner identifier := by
      intro other page hother hindexed
      have hfree := hunregistered other page hother hindexed
      exact (PageTargets.resolve?_of_contains_eq_false hfree).symm.trans
        (hunanswered other page hother hindexed)
    have hsamePage : first = page := Option.some.inj (hfirst.symm.trans hpage)
    rw [hsamePage] at hfound
    have hsame : found = target := Option.some.inj (hfound.symm.trans hresolves)
    rw [hsame]
    exact ⟨iff_of_true hkey hnone, iff_of_true rfl hnone, fun hother => absurd hkey hother⟩

def cased : List SourceDocument :=
  [{ path := "a.md", page := { slug := "a", url := "/a" }
     content := .ofType NodeType.root
       [{ type := NodeType.heading, identifier := some "Intro" }] },
   { path := "b.md", page := { slug := "b", url := "/b" }
     content := .ofType NodeType.root
       [{ type := NodeType.heading, identifier := some "intro" }] }]

/-- The second page has the identifier, the first has it as an anchor and is found. -/
theorem cased_finds_anchor : ∃ page target found,
    (SourceDocument.indexOf {} cased).registrar? "intro" = some ("b.md", page) ∧
    page.targets.targets.get? "intro" = some target ∧
    (SourceDocument.indexOf {} cased).resolve? "intro" none = some ("a.md", found) ∧
    found.identifier ≠ "intro" ∧ found.htmlId = "intro" := by
  have hregistrar : ((SourceDocument.indexOf {} cased).registrar? "intro").map (·.1) =
      some "b.md" := by
    decide +kernel
  have hfirst : ((SourceDocument.indexOf {} cased).resolve? "intro" none).map (·.1) =
      some "a.md" := by
    decide +kernel
  obtain ⟨⟨owner, page⟩, hpage, rfl⟩ := Option.map_eq_some_iff.1 hregistrar
  obtain ⟨target, file, found, htarget, -, hresult, hsame, howner, hanchor⟩ :=
    resolve?_finds_registered_iff (fun _ _ => SourceDocument.reachable_of_get?_indexOf) hpage
  rw [hresult] at hfirst
  have hfile : file = "a.md" := Option.some.inj hfirst
  have hother : found.identifier ≠ "intro" := by
    intro hidentifier
    have hfound := howner.2 (hsame.1 hidentifier)
    have hsameFile : "a.md" = "b.md" := hfile.symm.trans (congrArg Prod.fst hfound)
    exact absurd hsameFile (by decide)
  exact ⟨page, target, found, hpage, htarget, hfile ▸ hresult, hother, (hanchor hother).2⟩

end ProjectIndex

end CrossDoc
