import CrossDoc.Node.Basic

/-!
# Targets

What can be referred to: the kinds of targets, how each kind is numbered in text, and what is known
of one target.
-/

namespace CrossDoc

inductive TargetKind where
  | page
  | heading
  | figure
  | table
  | code
  | equation
  | generic
deriving DecidableEq, Repr, Inhabited

namespace TargetKind

def name : TargetKind → String
  | page => "page"
  | heading => "heading"
  | figure => "figure"
  | table => "table"
  | code => "code"
  | equation => "equation"
  | generic => "generic"

def all : List TargetKind := [page, heading, figure, table, code, equation, generic]

def ofName? (name : String) : Option TargetKind := all.find? (fun kind => kind.name == name)

def ofNode? (attributes : Attributes) : Option TargetKind :=
  if attributes.is NodeType.heading then some heading
  else if attributes.is NodeType.math then some equation
  else if attributes.is NodeType.container then
    if attributes.kind = some "table" then some table
    else if attributes.kind = some "code" then some code
    else some figure
  else none

def numbered? (kind : TargetKind) (number : String) : Option String :=
  match kind with
  | heading => some ("Section " ++ number)
  | figure => some ("Figure " ++ number)
  | table => some ("Table " ++ number)
  | code => some ("Program " ++ number)
  | equation => some ("(" ++ number ++ ")")
  | page | generic => none

def toJson (kind : TargetKind) : Json := .str kind.name

def decode : Json.Decoder TargetKind :=
  Json.Decoder.variant (all.map (fun kind => (kind.name, kind)))

end TargetKind

/--
Something that can be referred to: its identifier, its number, its anchor, its url and its title.
-/
structure Target where
  identifier : String
  kind : TargetKind
  enumerator : Option String := none
  htmlId : String
  url : String
  dataUrl : Option String := none
  title : Option String := none
deriving DecidableEq, Repr, Inhabited

namespace Target

/-- The text of a reference without text of its own: the target's number, or else its title. -/
def linkText? (target : Target) : Option String :=
  target.enumerator.bind target.kind.numbered? <|> target.title

def fields : List Json.Field :=
  [.needed "identifier", .needed "kind", .needed "enumerator", .needed "html_id", .needed "url",
   .needed "dataUrl", .needed "title"]

def toJson (target : Target) : Json :=
  .obj ([("identifier", .str target.identifier), ("kind", target.kind.toJson)] ++
    Json.member? "enumerator" .str target.enumerator ++
    [("html_id", .str target.htmlId), ("url", .str target.url)] ++
    Json.member? "dataUrl" .str target.dataUrl ++
    Json.member? "title" .str target.title)

def decode : Json.Decoder Target := Json.record "TargetDescriptor" fields (fun members =>
  mk <$> members.required "identifier" Json.Decoder.text
    <*> members.required "kind" TargetKind.decode
    <*> members.optional "enumerator" Json.Decoder.text
    <*> members.required "html_id" Json.Decoder.text
    <*> members.required "url" Json.Decoder.text
    <*> members.optional "dataUrl" Json.Decoder.text
    <*> members.optional "title" Json.Decoder.text)

end Target

end CrossDoc
