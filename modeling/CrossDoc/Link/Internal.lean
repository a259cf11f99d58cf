import CrossDoc.Index
import CrossDoc.Link.Rule
import CrossDoc.Text.Basic

/-!
# Links inside the project

A link such as `chapter.md#intro` leads to another document of the project, and `#intro` to a place
in the same one. A path is read relative to the directory of the document it stands in, or to the
project's root if it starts with a slash, and never leads out of the project. With a fragment that
names a target of the page the link becomes a cross-reference.
-/

namespace CrossDoc

namespace RelativePath

def segments (path : List Char) : List (List Char) := Text.splitAt (· == '/') path

/-- Follows one segment from a directory: back to its parent, nowhere, or into an entry. -/
def follow (directory : List (List Char)) (segment : List Char) : List (List Char) :=
  if segment = [] || segment = ['.'] then directory
  else if segment = ['.', '.'] then directory.dropLast
  else directory ++ [segment]

def start (file target : List Char) : List (List Char) :=
  if target.head? = some '/' then [] else (segments file).dropLast

/-- The path that `target` names when it stands in the document `file`. -/
def resolve (file target : String) : String :=
  let reached := (segments target.toList).foldl follow (start file.toList target.toList)
  String.ofList (Text.join ['/'] reached)

end RelativePath

namespace InternalLink

def hasScheme (uri : List Char) : Bool :=
  match Text.cut? ':' uri with
  | some (before, _) => !before.any (fun c => c == '/' || c == '#' || c == '?')
  | none => false

def parts (uri : String) : String × Option String :=
  match Text.cut? '#' uri.toList with
  | some (path, fragment) => (String.ofList path, some (String.ofList fragment))
  | none => (uri, none)

/--
The document that the path of a link leads to; no path leads to the document the link stands in.
-/
def targetFile (file path : String) : String :=
  if path.isEmpty then file else RelativePath.resolve file path

/--
Whether a url is a link inside the project: a bare fragment, or the path of a document in the index.
-/
def claims (index : ProjectIndex) (file uri : String) : Bool :=
  if uri.isEmpty || hasScheme uri.toList then false
  else
    let (path, _) := parts uri
    -- a fragment without a name is left to a browser
    if path.isEmpty then 1 < uri.length
    else (index.targets? (targetFile file path)).isSome

def failure (message : String) (link : Attributes) : Diagnostic where
  severity := .error
  message := message
  rule := .linkResolves
  source := some "LinkTransform:InternalLinkTransformer"
  node := some link.describe

def toPage (link : Attributes) (url : String) : Attributes :=
  { link with isInternal := some true, url := some url }

def toTarget (link : Attributes) (target : Target) (url : String) : Attributes :=
  { link with
    isInternal := some true
    type := NodeType.crossReference
    identifier := some target.identifier
    label := some target.identifier
    htmlId := some target.htmlId
    kind := some target.kind.name
    enumerator := target.enumerator
    url := some url }

def resolve (index : ProjectIndex) (file : String) (link : Attributes) :
    Except Diagnostic Attributes :=
  let uri := link.writtenUrl.getD ""
  let (path, fragment) := parts uri
  let targetFile := targetFile file path
  match index.targets? targetFile with
  | none => .error (failure ("Link target document not found: " ++ targetFile) link)
  | some page =>
    match fragment.bind Label.identifier? with
    | none => .ok (toPage link page.url)
    | some identifier =>
      match page.resolve? identifier with
      | none =>
        .error (failure ("Link target \"" ++ uri ++ "\" not found in " ++ targetFile) link)
      | some target =>
        -- the page itself has no anchor to point at
        if page.isFileTarget target.identifier then .ok (toPage link page.url)
        else
          .ok (toTarget link target
            (if targetFile = file then "#" ++ target.htmlId else target.url))

def rule (index : ProjectIndex) (file : String) : LinkRule where
  protocol := "file"
  claims := claims index file
  resolve link := { result := resolve index file link }

end InternalLink

end CrossDoc
