import CrossDoc.External.Basic
import CrossDoc.Report

/-!
# The cache of remote data

Indices and pages of external projects are asked for by url, and each url at most once in a session
for either: whoever asks later gets the answer that came first, also when it is that there is
nothing to get. Here those who ask come one after another; `Session` has them come all at once.
-/

namespace CrossDoc

/-- Where remote data come from: what a url answers, or nothing where it fails. -/
abbrev RemoteSource := String → Option Json

/-- The answers of the urls that have been asked for. -/
abbrev MemoTable (α : Type) := SortedMap (Option α)

namespace MemoTable

variable {α : Type}

def answer? (table : MemoTable α) (url : String) : Option (Option α) := table.get? url

def settle (table : MemoTable α) (url : String) (answer : Option α) : MemoTable α :=
  table.insert url answer

end MemoTable

def RemoteSource.value? {α : Type} (source : RemoteSource) (decoder : Json.Decoder α)
    (url : String) : Option α :=
  (source url).bind (fun json => (decoder .value json).toOption)

/--
What has been asked for in a session: pages and indices, and every request that was sent, in order.
-/
structure RemoteCache where
  pages : MemoTable RemotePage := ∅
  indices : MemoTable RemoteIndex := ∅
  requests : List String := []

namespace RemoteCache

instance : Inhabited RemoteCache := ⟨{}⟩

/-- The page data at a url, asked for only if they have not been before. -/
def page (source : RemoteSource) (url : String) (cache : RemoteCache) :
    Option RemotePage × RemoteCache :=
  match cache.pages.answer? url with
  | some answer => (answer, cache)
  | none =>
    -- that there is no page is kept as well
    let answer := source.value? RemotePage.decode url
    (answer,
      { cache with
        pages := cache.pages.settle url answer, requests := cache.requests ++ [url] })

def index (source : RemoteSource) (url : String) (cache : RemoteCache) :
    Option RemoteIndex × RemoteCache :=
  match cache.indices.answer? url with
  | some answer => (answer, cache)
  | none =>
    let answer := source.value? RemoteIndex.decode url
    (answer,
      { cache with
        indices := cache.indices.settle url answer, requests := cache.requests ++ [url] })

def project (source : RemoteSource) (project : ExternalProject) (cache : RemoteCache) :
    ProjectReference × RemoteCache :=
  match project.kind with
  | .generic => (project.unloaded, cache)
  | .myst =>
    let (index, cache) := cache.index source project.indexUrl
    ({ project.unloaded with index }, cache)

/-- Does one thing after another, handing the cache on. -/
def each {α β : Type} (f : α → RemoteCache → β × RemoteCache) :
    List α → RemoteCache → List β × RemoteCache
  | [], cache => ([], cache)
  | item :: rest, cache =>
    let (result, cache) := f item cache
    let (results, cache) := each f rest cache
    (result :: results, cache)

def projects (source : RemoteSource) (projects : List ExternalProject) (cache : RemoteCache) :
    List ProjectReference × RemoteCache :=
  each (project source) projects cache

def pageCount (cache : RemoteCache) : Nat := cache.pages.size

def requestCount (cache : RemoteCache) : Nat := cache.requests.length

end RemoteCache

end CrossDoc
