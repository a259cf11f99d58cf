import CrossDoc.External.Cache
import CrossDoc.Proofs.SortedMap

/-!
# What a session answers

A page url has one answer in a session: the one that was given before, or else the one that the
source gives now (`pageAt`). Asking for pages does not change it (`pageAt_page`). So whatever asks
for nothing but pages computes from these answers alone (`ReadsPages`), and of a list of things to
do each is done once, in its place (`readsPages_each`). What was once given stays
(`answer?_page`), for every page of a list too (`answer?_each_page`).
-/

namespace CrossDoc

namespace MemoTable

variable {α : Type}

theorem answer?_settle (table : MemoTable α) (url other : String) (answer : Option α) :
    (table.settle url answer).answer? other =
      if other = url then some answer else table.answer? other := by
  unfold answer? settle
  exact SortedMap.get?_insert ..

end MemoTable

namespace RemoteCache

variable {α β : Type}

theorem length_each (f : α → RemoteCache → β × RemoteCache) (items : List α)
    (cache : RemoteCache) : (each f items cache).1.length = items.length := by
  induction items generalizing cache with
  | nil => rfl
  | cons item rest ih => simp [each, ih]

theorem getElem?_each (f : α → RemoteCache → β × RemoteCache) (items : List α)
    (cache : RemoteCache) (place : Nat) :
    (each f items cache).1[place]? =
      (items[place]?).map (fun item => (f item (each f (items.take place) cache).2).1) := by
  induction items generalizing cache place with
  | nil => rfl
  | cons item rest ih =>
      cases place with
      | zero => rfl
      | succ place =>
          have hrest := ih (f item cache).2 place
          simpa [each] using hrest

/-! ## The answers of page urls -/

abbrev PageAnswers := String → Option RemotePage

variable (source : RemoteSource)

/-- What a page url answers in a session: as before, or else as the source answers now. -/
def pageAt (cache : RemoteCache) : PageAnswers := fun url =>
  (cache.pages.answer? url).getD (source.value? RemotePage.decode url)

theorem fst_page (url : String) (cache : RemoteCache) :
    (cache.page source url).1 = cache.pageAt source url := by
  unfold page pageAt
  cases hknown : cache.pages.answer? url with
  | none => rfl
  | some answer => rfl

theorem pageAt_page (url : String) (cache : RemoteCache) :
    (cache.page source url).2.pageAt source = cache.pageAt source := by
  unfold page
  cases hknown : cache.pages.answer? url with
  | some answer => rfl
  | none =>
      funext other
      simp only [pageAt, MemoTable.answer?_settle]
      split
      · rename_i heq
        rw [heq, hknown]
        rfl
      · rfl

/-- What is computed depends on the answers of page urls alone, and leaves them as they are. -/
structure ReadsPages (f : RemoteCache → β × RemoteCache) (g : PageAnswers → β) : Prop where
  result : ∀ cache, (f cache).1 = g (cache.pageAt source)
  answers : ∀ cache, (f cache).2.pageAt source = cache.pageAt source

theorem readsPages_pure (result : β) :
    ReadsPages source (fun cache => (result, cache)) (fun _ => result) :=
  ⟨fun _ => rfl, fun _ => rfl⟩

theorem readsPages_page (url : String) :
    ReadsPages source (page source url) (fun answers => answers url) :=
  ⟨fst_page source url, pageAt_page source url⟩

theorem readsPages_each {f : α → RemoteCache → β × RemoteCache} {g : α → PageAnswers → β}
    (h : ∀ item, ReadsPages source (f item) (g item)) (items : List α) :
    ReadsPages source (each f items) (fun answers => items.map (fun item => g item answers)) := by
  induction items with
  | nil => exact readsPages_pure source []
  | cons item rest ih =>
      constructor
      · intro cache
        simp only [each, List.map_cons]
        rw [(h item).result, ih.result, (h item).answers]
      · intro cache
        simp only [each]
        rw [ih.answers, (h item).answers]

/-! ## Urls that were asked for -/

theorem page_of_answer? {url : String} {cache : RemoteCache} {answer : Option RemotePage}
    (h : cache.pages.answer? url = some answer) : cache.page source url = (answer, cache) := by
  unfold page
  rw [h]

theorem answer?_page (url other : String) (cache : RemoteCache)
    (h : other = url ∨ cache.pages.answer? other = some (cache.pageAt source other)) :
    (cache.page source url).2.pages.answer? other = some (cache.pageAt source other) := by
  cases hknown : cache.pages.answer? url with
  | some answer =>
      rw [page_of_answer? source hknown]
      rcases h with rfl | h
      · simp [pageAt, hknown]
      · exact h
  | none =>
      unfold page
      rw [hknown]
      simp only [MemoTable.answer?_settle]
      by_cases hsame : other = url
      · simp [pageAt, hsame, hknown]
      · rw [if_neg hsame]
        exact h.resolve_left hsame

theorem answer?_each_page (url : α → String) (items : List α) (cache : RemoteCache)
    (other : String)
    (h : (∃ item ∈ items, other = url item) ∨
      cache.pages.answer? other = some (cache.pageAt source other)) :
    (each (fun item => page source (url item)) items cache).2.pages.answer? other =
      some (cache.pageAt source other) := by
  induction items generalizing cache with
  | nil => exact h.resolve_left (by simp)
  | cons item rest ih =>
      have hsame := pageAt_page source (url item) cache
      simp only [each]
      rw [← hsame]
      refine ih _ ?_
      rw [hsame]
      rcases h with ⟨asked, hasked, rfl⟩ | hknown
      · rcases List.mem_cons.1 hasked with rfl | hrest
        · exact Or.inr (answer?_page source _ _ cache (Or.inl rfl))
        · exact Or.inl ⟨asked, hrest, rfl⟩
      · exact Or.inr (answer?_page source _ _ cache (Or.inr hknown))

/-- To ask for urls that have their answers leaves the cache as it is. -/
theorem each_page_of_answer? {url : α → String} {items : List α} {cache : RemoteCache}
    {answers : PageAnswers}
    (h : ∀ item ∈ items, cache.pages.answer? (url item) = some (answers (url item))) :
    each (fun item => page source (url item)) items cache =
      (items.map (fun item => answers (url item)), cache) := by
  induction items with
  | nil => rfl
  | cons item rest ih =>
      obtain ⟨hitem, hrest⟩ := List.forall_mem_cons.1 h
      simp only [each, page_of_answer? source hitem, ih hrest, List.map_cons]

end RemoteCache

end CrossDoc
