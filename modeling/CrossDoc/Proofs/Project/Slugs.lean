import CrossDoc.CommandLine.Slug
import CrossDoc.Project.Documents
import CrossDoc.Proofs.Json.Record
import CrossDoc.Proofs.Target.SectionNumber
import Mathlib.Data.Finset.Card

/-!
# Slugs of their own

Pages that would share a slug are told apart by numbers. The search for a slug goes from each number
whose slug is taken to the next (`Search`). It ends because numbered slugs are all different, so the
slugs that are taken can hold it up once each (`exists_free`). Plain and numbered slugs share one
space of names: what counts as taken is what the pages before have, whether it is their own slug or
a numbered one (`loadAll_claims_slugs`).
-/

namespace CrossDoc.SourceDocument

variable {taken : List String} {base : String} {page : Page}

/-! ## Numbered slugs -/

theorem numberedSlug_zero (base : String) : numberedSlug base 0 = base := if_pos rfl

theorem numberedSlug_of_pos {n : Nat} (h : 1 ≤ n) (base : String) :
    numberedSlug base n = base ++ "-" ++ toString n := if_neg (by omega)

theorem base_ne_numbered (base : String) (n : Nat) : base ≠ base ++ "-" ++ toString n := by
  intro h
  have hlength := congrArg String.length h
  have hdash : "-".length = 1 := rfl
  rw [String.length_append, String.length_append, hdash] at hlength
  omega

theorem numberedSlug_injective (base : String) : Function.Injective (numberedSlug base) := by
  intro n m h
  rcases Nat.eq_zero_or_pos n with rfl | hn <;> rcases Nat.eq_zero_or_pos m with rfl | hm
  · rfl
  · rw [numberedSlug_zero, numberedSlug_of_pos hm] at h
    exact absurd h (base_ne_numbered base m)
  · rw [numberedSlug_zero, numberedSlug_of_pos hn] at h
    exact absurd h.symm (base_ne_numbered base n)
  · rw [numberedSlug_of_pos hn, numberedSlug_of_pos hm] at h
    exact Counters.toString_injective ((String.append_right_inj _).1 h)

/-- Of one number more than there are taken slugs, one has a slug that is free. -/
theorem exists_free (taken : List String) (base : String) :
    ∃ n ≤ taken.length, numberedSlug base n ∉ taken := by
  let numbered := (Finset.range (taken.length + 1)).image (numberedSlug base)
  have hmore : taken.toFinset.card < numbered.card := by
    rw [Finset.card_image_of_injective _ (numberedSlug_injective base), Finset.card_range]
    exact Nat.lt_succ_of_le (List.toFinset_card_le taken)
  obtain ⟨slug, hslug, hfree⟩ := Finset.exists_mem_notMem_of_card_lt_card hmore
  obtain ⟨n, hn, rfl⟩ := Finset.mem_image.1 hslug
  exact ⟨n, Nat.le_of_lt_succ (Finset.mem_range.1 hn),
    fun hmem => hfree (List.mem_toFinset.2 hmem)⟩

/-! ## The search for a slug -/

/-- A search for a slug, from a number to the first one on from there whose slug is free. -/
inductive Search (taken : List String) (base : String) : Nat → Nat → Prop where
  | free {n : Nat} (h : numberedSlug base n ∉ taken) : Search taken base n n
  | next {n found : Nat} (h : numberedSlug base n ∈ taken)
      (rest : Search taken base (n + 1) found) : Search taken base n found

theorem search_of_forall {start found : Nat} (hle : start ≤ found)
    (hfree : numberedSlug base found ∉ taken)
    (hway : ∀ n, start ≤ n → n < found → numberedSlug base n ∈ taken) :
    Search taken base start found := by
  -- from `found` down: a search is built from its end
  induction hle using Nat.decreasingInduction with
  | self => exact .free hfree
  | of_succ n hlt ih =>
      exact .next (hway n (Nat.le_refl n) hlt) (ih (fun m hm => hway m (Nat.le_of_succ_le hm)))

theorem freeNumber_spec (taken : List String) (base : String) :
    freeNumber taken base ≤ taken.length ∧
      numberedSlug base (freeNumber taken base) ∉ taken ∧
      ∀ n < freeNumber taken base, numberedSlug base n ∈ taken := by
  unfold freeNumber
  cases hfind : (List.range (taken.length + 1)).find?
      (fun n => !taken.contains (numberedSlug base n)) with
  | none =>
      obtain ⟨n, hn, hfree⟩ := exists_free taken base
      have htaken := List.find?_range_eq_none.1 hfind n (Nat.lt_succ_of_le hn)
      simp [hfree] at htaken
  | some found =>
      obtain ⟨hfree, hrange, hbelow⟩ := List.find?_range_eq_some.1 hfind
      refine ⟨Nat.le_of_lt_succ (List.mem_range.1 hrange), by simpa using hfree, ?_⟩
      intro n hn
      simpa using hbelow n hn

theorem freeNumber_eq_zero_iff : freeNumber taken base = 0 ↔ base ∉ taken := by
  obtain ⟨-, hfree, hbelow⟩ := freeNumber_spec taken base
  constructor
  · intro hzero
    rwa [hzero, numberedSlug_zero] at hfree
  · intro hbase
    by_contra hne
    exact hbase (numberedSlug_zero base ▸ hbelow 0 (Nat.pos_of_ne_zero hne))

theorem search_freeNumber (taken : List String) (base : String) :
    Search taken base 0 (freeNumber taken base) := by
  obtain ⟨-, hfree, hbelow⟩ := freeNumber_spec taken base
  exact search_of_forall (Nat.zero_le _) hfree (fun n _ hn => hbelow n hn)

/-! ## What a page claims -/

/-- A page has claimed a slug after others, where it would have had `base` alone. -/
structure Claimed (taken : List String) (base : String) (page : Page) : Prop where
  url : page.url = "/" ++ page.slug
  fresh : page.slug ∉ taken
  /-- The search ends, and each taken slug holds it up once at most. -/
  search : ∃ n ≤ taken.length, Search taken base 0 n ∧ page.slug = numberedSlug base n
  own : base ∉ taken → page.slug = base
  numbered : base ∈ taken → ∃ n, 1 ≤ n ∧ page.slug = base ++ "-" ++ toString n ∧
    ∀ m, 1 ≤ m → m < n → base ++ "-" ++ toString m ∈ taken

theorem claimSlug_eq (hurl : page.url = "/" ++ page.slug) (taken : List String) :
    claimSlug taken page =
      let slug := numberedSlug page.slug (freeNumber taken page.slug)
      { page with slug, url := "/" ++ slug } := by
  unfold claimSlug
  by_cases hzero : freeNumber taken page.slug = 0
  · rw [if_pos hzero, hzero, numberedSlug_zero]
    simp only [← hurl]
  · rw [if_neg hzero]

theorem claimed_claimSlug (hurl : page.url = "/" ++ page.slug) (taken : List String) :
    Claimed taken page.slug (claimSlug taken page) := by
  obtain ⟨hle, hfree, hbelow⟩ := freeNumber_spec taken page.slug
  rw [claimSlug_eq hurl]
  refine ⟨rfl, hfree, ⟨_, hle, search_freeNumber taken page.slug, rfl⟩, fun hbase => ?_,
    fun hbase => ?_⟩
  · simp only [freeNumber_eq_zero_iff.2 hbase, numberedSlug_zero]
  · have hpos : 1 ≤ freeNumber taken page.slug :=
      Nat.one_le_iff_ne_zero.2 (fun hzero => freeNumber_eq_zero_iff.1 hzero hbase)
    refine ⟨_, hpos, numberedSlug_of_pos hpos page.slug, fun m hm hlt => ?_⟩
    rw [← numberedSlug_of_pos hm]
    exact hbelow m hlt

/-! ## One page after another -/

section Places

variable [Text.Slugger]

structure AtOwnPlace (document : SourceDocument) : Prop where
  slug : document.page.slug = SourceDocument.slug document.path
  url : document.page.url = "/" ++ document.page.slug

/-- Whether two documents differ at most in where their pages are. -/
def Moved (document moved : SourceDocument) : Prop :=
  moved = { document with
    page := { document.page with slug := moved.page.slug, url := moved.page.url } }

variable {documents : List SourceDocument}

theorem forall₂_moved_claimSlugs (h : ∀ document ∈ documents, document.AtOwnPlace)
    (taken : List String) : List.Forall₂ Moved documents (claimSlugs taken documents) := by
  induction documents generalizing taken with
  | nil => exact .nil
  | cons document rest ih =>
      obtain ⟨hfirst, hrest⟩ := List.forall_mem_cons.1 h
      refine .cons ?_ (ih hrest _)
      unfold Moved
      rw [claimSlug_eq hfirst.url]

theorem nodup_slug_claimSlugs (h : ∀ document ∈ documents, document.AtOwnPlace)
    (taken : List String) :
    ((claimSlugs taken documents).map (·.page.slug)).Nodup ∧
      ∀ document ∈ claimSlugs taken documents, document.page.slug ∉ taken := by
  induction documents generalizing taken with
  | nil => exact ⟨List.nodup_nil, List.forall_mem_nil _⟩
  | cons document rest ih =>
      obtain ⟨hfirst, hrest⟩ := List.forall_mem_cons.1 h
      have hclaimed := claimed_claimSlug hfirst.url taken
      obtain ⟨hnodup, hfresh⟩ := ih hrest ((claimSlug taken document.page).slug :: taken)
      refine ⟨List.nodup_cons.2 ⟨fun hmem => ?_, hnodup⟩, List.forall_mem_cons.2
        ⟨hclaimed.fresh, fun other hother hmem => ?_⟩⟩
      · obtain ⟨other, hother, hsame⟩ := List.mem_map.1 hmem
        exact hfresh other hother (hsame ▸ List.mem_cons_self)
      · exact hfresh other hother (List.mem_cons_of_mem _ hmem)

theorem claimed_of_claimSlugs (h : ∀ document ∈ documents, document.AtOwnPlace)
    {before after : List SourceDocument} {document : SourceDocument}
    (hsplit : claimSlugs taken documents = before ++ document :: after) :
    Claimed ((before.map (·.page.slug)).reverse ++ taken) (slug document.path) document.page := by
  -- `taken` grows at its front, so the pages before stand in it from the last to the first
  induction documents generalizing taken before with
  | nil => simp [claimSlugs] at hsplit
  | cons first rest ih =>
      obtain ⟨hfirst, hrest⟩ := List.forall_mem_cons.1 h
      rw [claimSlugs] at hsplit
      cases before with
      | nil =>
          obtain ⟨rfl, -⟩ := List.cons.inj hsplit
          rw [← hfirst.slug]
          exact claimed_claimSlug hfirst.url taken
      | cons head before =>
          obtain ⟨rfl, hlater⟩ := List.cons.inj hsplit
          have hclaimed := ih hrest hlater
          rwa [List.map_cons, List.reverse_cons, List.append_assoc]

/-! ## The documents of a project -/

variable {disk : Disk} {root : String} {settings : Settings}

theorem atOwnPlace_ofFile (path : String) (file : SourceFile) :
    (ofFile path file).AtOwnPlace where
  slug := by simp only [ofFile]
  url := by simp only [ofFile]

theorem atOwnPlace_of_load {path : String} {document : SourceDocument}
    (h : load disk root path = .ok document) : document.AtOwnPlace := by
  unfold load at h
  split at h
  · simp at h
  · split at h
    · simp at h
    · rename_i file _
      obtain rfl := Except.ok.inj h
      exact atOwnPlace_ofFile path file

/--
The documents of a project whose files can all be read. They are those that were read, in this
order, and differ from them at most in where their pages are. Slugs and urls are all different.
Every page has its own slug if no page before it has that, and else the slug with the least number
that none of them has; the slugs before a page are listed from the last to the first.
-/
theorem loadAll_claims_slugs
    (hread : (scan disk root settings).mapM (load disk root) = .ok documents) :
    ∃ claimed, loadAll disk root settings = .ok claimed ∧
      List.Forall₂ Moved documents claimed ∧
      (claimed.map (·.page.slug)).Nodup ∧ (claimed.map (·.page.url)).Nodup ∧
      ∀ before document after, claimed = before ++ document :: after →
        Claimed (before.map (·.page.slug)).reverse (slug document.path) document.page := by
  have hown : ∀ document ∈ documents, document.AtOwnPlace := by
    intro document hdocument
    have hmem : Except.ok document ∈ (scan disk root settings).map (load disk root) := by
      rw [Json.Decoder.map_of_mapM_eq_ok hread]
      exact List.mem_map_of_mem hdocument
    obtain ⟨path, -, hload⟩ := List.mem_map.1 hmem
    exact atOwnPlace_of_load hload
  have hclaimed : ∀ before document after, claimSlugs [] documents = before ++ document :: after →
      Claimed (before.map (·.page.slug)).reverse (slug document.path) document.page := by
    intro before document after hsplit
    have hturn := claimed_of_claimSlugs hown hsplit
    rwa [List.append_nil] at hturn
  obtain ⟨hslugs, -⟩ := nodup_slug_claimSlugs hown []
  refine ⟨claimSlugs [] documents, ?_, forall₂_moved_claimSlugs hown [], hslugs, ?_, hclaimed⟩
  · unfold loadAll
    rw [hread]
    rfl
  · have hplaces : (claimSlugs [] documents).map (·.page.url) =
        ((claimSlugs [] documents).map (·.page.slug)).map ("/" ++ ·) := by
      rw [List.map_map]
      refine List.map_congr_left (fun document hdocument => ?_)
      obtain ⟨before, after, hsplit⟩ := List.append_of_mem hdocument
      exact (hclaimed before document after hsplit).url
    rw [hplaces]
    exact hslugs.map (fun _ _ h => (String.append_right_inj "/").1 h)

end Places

def introductions : Disk where
  files := .ofList (["intro.ipynb", "intro.md", "intro_1.md"].map (fun key =>
    ("/project/" ++ key ++ ".json", .text "\x7b\"mdast\": \x7b\"type\": \"root\"\x7d\x7d")))
  directories := .ofList [("/project", ())]

theorem introductions_claim_slugs :
    ∃ documents claimed,
      (scan introductions "/project" {}).mapM (load introductions "/project") = .ok documents ∧
      loadAll introductions "/project" {} = .ok claimed ∧
      (claimed.map (·.page.url)).Nodup ∧
      claimed.map (fun document => (document.path, document.page.slug)) =
        [("intro.ipynb", "intro"), ("intro.md", "intro-1"), ("intro_1.md", "intro-1-1")] := by
  have hscan : scan introductions "/project" {} =
      ["intro.ipynb.json", "intro.md.json", "intro_1.md.json"] := by
    unfold scan
    rw [List.mergeSort_of_pairwise (by decide +kernel)]
    decide +kernel
  have hslugs : (loadAll introductions "/project" {}).toOption.map
      (·.map (fun document => (document.path, document.page.slug))) =
      some [("intro.ipynb", "intro"), ("intro.md", "intro-1"), ("intro_1.md", "intro-1-1")] := by
    unfold loadAll
    rw [hscan]
    decide +kernel
  cases hread : (scan introductions "/project" {}).mapM (load introductions "/project") with
  | error failure =>
      unfold loadAll at hslugs
      rw [hread] at hslugs
      exact absurd hslugs (Option.some_ne_none _).symm
  | ok documents =>
      obtain ⟨claimed, hclaimed, -, -, hurls, -⟩ := loadAll_claims_slugs hread
      rw [hclaimed] at hslugs
      exact ⟨documents, claimed, rfl, hclaimed, hurls, Option.some.inj hslugs⟩

end CrossDoc.SourceDocument
