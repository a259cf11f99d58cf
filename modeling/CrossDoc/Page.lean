import CrossDoc.Json.Record

/-!
# Pages and the sources they use

What is known of a page besides its content, and the record that a page keeps of every source it
copies content from. The graph of a project's dependencies tells which of its pages copy content
from which others, and so what a change to a page makes it necessary to resolve again.
-/

namespace CrossDoc

structure Frontmatter where
  title : Option String := none
  shortTitle : Option String := none
  label : Option String := none
deriving DecidableEq, Repr, Inhabited

structure Dependency where
  url : Option String := none
  remoteBaseUrl : Option String := none
  label : Option String := none
  kind : Option String := none
  slug : Option String := none
  location : Option String := none
  title : Option String := none
  shortTitle : Option String := none
deriving DecidableEq, Repr, Inhabited

structure Page where
  slug : String
  url : String
  kind : Option String := none
  location : Option String := none
  frontmatter : Frontmatter := {}
deriving DecidableEq, Repr, Inhabited

namespace Dependency

/-- The dependency with the details of its page, present or not, in place of those it had. -/
def withPageDetails (dependency : Dependency) (kind slug location : Option String)
    (frontmatter : Frontmatter) : Dependency :=
  { dependency with
    kind, slug, location
    title := frontmatter.title
    shortTitle := frontmatter.shortTitle }

/-- Adds a dependency at the end unless there is one with its url. -/
def pushUnique (dependencies : List Dependency) (dependency : Dependency) : List Dependency :=
  if dependencies.any (fun known => known.url == dependency.url) then dependencies
  else dependencies ++ [dependency]

def fields : List Json.Field :=
  [.needed "url", .needed "remoteBaseUrl", .needed "label", .needed "kind", .needed "slug",
   .needed "location", .needed "title", .needed "short_title"]

def toJson (dependency : Dependency) : Json :=
  .obj (Json.member? "url" .str dependency.url ++
    Json.member? "remoteBaseUrl" .str dependency.remoteBaseUrl ++
    Json.member? "label" .str dependency.label ++
    Json.member? "kind" .str dependency.kind ++
    Json.member? "slug" .str dependency.slug ++
    Json.member? "location" .str dependency.location ++
    Json.member? "title" .str dependency.title ++
    Json.member? "short_title" .str dependency.shortTitle)

def decode : Json.Decoder Dependency := Json.record "Dependency" fields (fun members =>
  mk <$> members.optional "url" Json.Decoder.text
    <*> members.optional "remoteBaseUrl" Json.Decoder.text
    <*> members.optional "label" Json.Decoder.text
    <*> members.optional "kind" Json.Decoder.text
    <*> members.optional "slug" Json.Decoder.text
    <*> members.optional "location" Json.Decoder.text
    <*> members.optional "title" Json.Decoder.text
    <*> members.optional "short_title" Json.Decoder.text)

end Dependency

namespace Frontmatter

def fields : List Json.Field := [.spare "title", .spare "short_title", .spare "label"]

def toJson (frontmatter : Frontmatter) : Json :=
  .obj (Json.member? "title" .str frontmatter.title ++
    Json.member? "short_title" .str frontmatter.shortTitle ++
    Json.member? "label" .str frontmatter.label)

def decode : Json.Decoder Frontmatter := Json.record "Frontmatter" fields (fun members =>
  mk <$> members.optional "title" Json.Decoder.text
    <*> members.optional "short_title" Json.Decoder.text
    <*> members.optional "label" Json.Decoder.text)

end Frontmatter

namespace Page

def dependency (page : Page) (label : String) : Dependency :=
  ({ url := some page.url, label := some label } : Dependency).withPageDetails
    page.kind (some page.slug) page.location page.frontmatter

def fields : List Json.Field :=
  [.needed "slug", .needed "url", .needed "kind", .needed "location",
   .spare "frontmatter" (.ofFields Frontmatter.fields)]

def toJson (page : Page) : Json :=
  .obj ([("slug", .str page.slug), ("url", .str page.url)] ++
    Json.member? "kind" .str page.kind ++
    Json.member? "location" .str page.location ++
    [("frontmatter", page.frontmatter.toJson)])

def decode : Json.Decoder Page := Json.record "PageMetadata" fields (fun members =>
  mk <$> members.required "slug" Json.Decoder.text
    <*> members.required "url" Json.Decoder.text
    <*> members.optional "kind" Json.Decoder.text
    <*> members.optional "location" Json.Decoder.text
    <*> members.orDefault "frontmatter" Frontmatter.decode {})

end Page

/-! ## Dependencies between pages -/

/-- For each page, the pages it depends on. -/
structure DependencyGraph where
  edges : SortedMap (SortedMap Unit) := ∅

namespace DependencyGraph

instance : Inhabited DependencyGraph := ⟨{}⟩

instance : DecidableEq DependencyGraph := fun a b =>
  if h : a.edges = b.edges then isTrue (by cases a; cases b; simpa using h)
  else isFalse (fun hab => h (hab ▸ rfl))

def union (a b : SortedMap Unit) : SortedMap Unit :=
  b.foldl (fun set member _ => set.insert member ()) a

def add (graph : DependencyGraph) (path dependency : String) : DependencyGraph :=
  { edges := graph.edges.alter path (fun set? => (set?.getD ∅).insert dependency ()) }

def merge (graph other : DependencyGraph) : DependencyGraph :=
  { edges := other.edges.foldl
      (fun edges path set => edges.alter path (fun set? => union (set?.getD ∅) set)) graph.edges }

def dependenciesOf (graph : DependencyGraph) (path : String) : List String :=
  ((graph.edges.get? path).getD ∅).keys

def dependentsOf (graph : DependencyGraph) (dependency : String) : List String :=
  (graph.edges.entries.filter (fun entry => entry.2.contains dependency)).map (·.1)

def edgeCount (graph : DependencyGraph) : Nat := (graph.edges.values.flatMap (·.entries)).length

def fields : List Json.Field := [.needed "edges"]

def toJson (graph : DependencyGraph) : Json :=
  .obj [("edges", .obj (graph.edges.map (fun set => Json.texts set.keys)).entries)]

def ofNames (names : List String) : SortedMap Unit :=
  SortedMap.ofList (names.map (fun name => (name, ())))

def decode : Json.Decoder DependencyGraph :=
  Json.record "LocalDependencyGraph" fields (fun members =>
    (fun edges => ⟨edges.map ofNames⟩) <$>
      members.required "edges" (Json.Decoder.map (Json.Decoder.list Json.Decoder.text)))

end DependencyGraph

end CrossDoc
