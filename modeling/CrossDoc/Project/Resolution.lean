import CrossDoc.Embed.Resolution
import CrossDoc.Link.Internal
import CrossDoc.Target.Enumeration

/-!
# Resolving a project

Every page is enumerated before anything is looked up, so look-ups see the whole project. Then links
and cross-references are resolved page by page; what results is what embeds copy from. Embeds come
next, and references to remote pages last, so that those which an embed brought in get text too.
-/

namespace CrossDoc

structure SourceDocument where
  path : String
  page : Page
  content : Node

structure ResolvedDocument where
  path : String
  content : Node
  dependencies : List Dependency
  report : Report

structure ProjectResolution where
  documents : List ResolvedDocument
  index : ProjectIndex
  graph : DependencyGraph

namespace ProjectResolution

def hasErrors (resolution : ProjectResolution) : Bool :=
  resolution.documents.any (fun document => document.report.hasErrors)

def findingCount (resolution : ProjectResolution) : Nat :=
  (resolution.documents.flatMap (fun document => document.report.entries)).length

end ProjectResolution

structure WorkingDocument where
  path : String
  page : Page
  targets : PageTargets
  content : Node
  report : Report
  registered : Nat

namespace SourceDocument

def enumerate [Text.Slugger] (numbering : Numbering) (document : SourceDocument) :
    WorkingDocument :=
  let (content, state) :=
    (document.page.startTargets document.path numbering).enumerate document.content
  { path := document.path
    page := document.page
    targets := state.page
    content
    report := { file := document.path, entries := state.found }
    registered := state.registered }

end SourceDocument

namespace WorkingDocument

def index (documents : List WorkingDocument) : ProjectIndex :=
  ProjectIndex.ofPages (documents.map (fun document => (document.targets, document.page)))

/-- The content of a list of pages by path; of two pages with one path the later counts. -/
def trees (documents : List WorkingDocument) : SortedMap Node :=
  SortedMap.ofList (documents.map (fun document => (document.path, document.content)))

/-- The rules for the links of a page: into external projects, then inside the project. -/
def linkRules (index : ProjectIndex) (projects : List LoadedProject) (file : String) : LinkRules :=
  [ExternalLink.rule projects, InternalLink.rule index file]

def resolveReferences (index : ProjectIndex) (projects : List LoadedProject)
    (document : WorkingDocument) : WorkingDocument :=
  let rules := linkRules index projects document.path
  let linked := rules.apply document.content
  { document with
    content := CrossReference.resolve index document.path linked
    report := (document.report.add (rules.findings document.content)).add
      (CrossReference.findings index document.path linked) }

/-- Fills the embeds of a page and then gives references to remote pages their text. -/
def finish (source : RemoteSource) (index : ProjectIndex) (trees : SortedMap Node)
    (projects : List LoadedProject) (document : WorkingDocument) (cache : RemoteCache) :
    (ResolvedDocument × DependencyGraph) × RemoteCache :=
  let scope : EmbedScope := { file := document.path, index, trees, projects }
  let (embeds, cache) :=
    Embed.resolveAll source scope
      { tree := document.content, dependencies := [], graph := {} } cache
  let (references, cache) := RemoteReference.resolve source embeds.books.tree cache
  (({ path := document.path
      content := references.tree
      dependencies := embeds.books.dependencies
      report := (document.report.add embeds.found).add references.found },
    embeds.books.graph),
   cache)

end WorkingDocument

/-- Resolves the pages of a project against the external projects that are known. -/
def resolveProject [Text.Slugger] (source : RemoteSource) (numbering : Numbering)
    (references : List ProjectReference) (documents : List SourceDocument) (cache : RemoteCache) :
    ProjectResolution × RemoteCache :=
  let enumerated := documents.map (SourceDocument.enumerate numbering)
  let index := WorkingDocument.index enumerated
  let projects := ExternalLink.projects references
  let linked := enumerated.map (WorkingDocument.resolveReferences index projects)
  let trees := WorkingDocument.trees linked
  let (finished, cache) :=
    RemoteCache.each (WorkingDocument.finish source index trees projects) linked cache
  ({ documents := finished.map (·.1)
     index
     graph := finished.foldl (fun graph entry => graph.merge entry.2) {} },
    cache)

end CrossDoc
