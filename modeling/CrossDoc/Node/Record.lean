import CrossDoc.Node.Basic

/-!
# Content trees in JSON

A node is written as an object: the attributes it has, its children, and then whatever else it
carries. Reading keeps every member that is no attribute, so nothing of a node is lost on the way.
-/

namespace CrossDoc

namespace Attributes

def fieldNames : List String :=
  ["type", "identifier", "label", "html_id", "enumerator", "enumerated", "depth", "kind", "value",
   "url", "urlSource", "dataUrl", "internal", "remote", "remoteBaseUrl", "protocol", "source",
   "remove-output", "remove-input", "children"]

def members (attributes : Attributes) : List (String × Json) :=
  [("type", .str attributes.type)] ++
    Json.member? "identifier" .str attributes.identifier ++
    Json.member? "label" .str attributes.label ++
    Json.member? "html_id" .str attributes.htmlId ++
    Json.member? "enumerator" .str attributes.enumerator ++
    Json.member? "enumerated" .bool attributes.enumerated ++
    Json.member? "depth" (fun depth => Json.nat depth.toNat) attributes.depth ++
    Json.member? "kind" .str attributes.kind ++
    Json.member? "value" .str attributes.value ++
    Json.member? "url" .str attributes.url ++
    Json.member? "urlSource" .str attributes.urlSource ++
    Json.member? "dataUrl" .str attributes.dataUrl ++
    Json.member? "internal" .bool attributes.isInternal ++
    Json.member? "remote" .bool attributes.isRemote ++
    Json.member? "remoteBaseUrl" .str attributes.remoteBaseUrl ++
    Json.member? "protocol" .str attributes.protocol ++
    Json.member? "source" Dependency.toJson attributes.source ++
    Json.member? "remove-output" .bool attributes.removeOutput ++
    Json.member? "remove-input" .bool attributes.removeInput

/-- Members that are no attributes, in order of their names, the last of a name alone kept. -/
def extraOf (members : List (String × Json)) : SortedMap Json :=
  SortedMap.ofList
    (Json.canonicalMembers (members.filter (fun member => !fieldNames.contains member.1)))

def read (members : Json.Members) : Json.Reading Attributes :=
  mk <$> members.required "type" Json.Decoder.text
    <*> members.optional "identifier" Json.Decoder.text
    <*> members.optional "label" Json.Decoder.text
    <*> members.optional "html_id" Json.Decoder.text
    <*> members.optional "enumerator" Json.Decoder.text
    <*> members.optional "enumerated" Json.Decoder.boolean
    <*> members.optional "depth" Json.Decoder.word32
    <*> members.optional "kind" Json.Decoder.text
    <*> members.optional "value" Json.Decoder.text
    <*> members.optional "url" Json.Decoder.text
    <*> members.optional "urlSource" Json.Decoder.text
    <*> members.optional "dataUrl" Json.Decoder.text
    <*> members.optional "internal" Json.Decoder.boolean
    <*> members.optional "remote" Json.Decoder.boolean
    <*> members.optional "remoteBaseUrl" Json.Decoder.text
    <*> members.optional "protocol" Json.Decoder.text
    <*> members.optional "source" Dependency.decode
    <*> members.optional "remove-output" Json.Decoder.boolean
    <*> members.optional "remove-input" Json.Decoder.boolean
    <*> pure (extraOf members.values)
    <*> pure .keep

end Attributes

namespace Node

/--
What is looked at in a tree: every member of a node is kept, but its source is a record of its own.
-/
def shape : Json.Shape := .tree "children" [("source", .ofFields Dependency.fields)]

mutual
def toJson (node : Node) : Json :=
  match node with
  | ⟨attributes, []⟩ => .obj (attributes.members ++ attributes.extra.entries)
  | ⟨attributes, child :: rest⟩ =>
    .obj (attributes.members ++ ("children", .arr (toJsonAll (child :: rest))) ::
      attributes.extra.entries)

def toJsonAll (nodes : List Node) : List Json :=
  match nodes with
  | [] => []
  | node :: rest => node.toJson :: toJsonAll rest
end

mutual
def decode (medium : Json.Medium) : Json → Except Json.Fault Node
  | .obj members =>
    (Json.checkUnique Attributes.fieldNames members *>
      (mk <$> Attributes.read ⟨medium, members⟩ <*> readChildren medium 0 members)).toExcept
  | other => .error (.wrongType other (.record "Node"))

def readChildren (medium : Json.Medium) (place : Nat) :
    List (String × Json) → Json.Reading (List Node)
  | [] => .value []
  | (name, .arr items) :: rest =>
    if name = "children" then .ofExcept place (decodeAll medium items)
    else readChildren medium (place + 1) rest
  | (name, other) :: rest =>
    if name = "children" then .fault place (.wrongType other .sequence)
    else readChildren medium (place + 1) rest

def decodeAll (medium : Json.Medium) : List Json → Except Json.Fault (List Node)
  | [] => .ok []
  | item :: rest => do
    let node ← decode medium item
    let nodes ← decodeAll medium rest
    return node :: nodes
end

end Node

end CrossDoc
