import CrossDoc.Node.Walk

/-!
# Filling an embed

An embed is filled with a copy of its target. The embed may ask to leave out what programs put out,
or their source; and the copy gives up its identity, since an anchor may stand on a page only once.
What a copy points at must not change, so references that were relative to the page or the project
it comes from are spelled out.
-/

namespace CrossDoc

def Attributes.isOutput (attributes : Attributes) : Bool :=
  attributes.is NodeType.output || attributes.dataType == some NodeType.output

def Attributes.isInput (attributes : Attributes) : Bool :=
  attributes.is NodeType.code && !attributes.isOutput

namespace Node

/-- The copy without the identity of any target in it. -/
def anonymous (node : Node) : Node :=
  node.mapAttributes (fun attributes =>
    if attributes.isTarget then attributes.withoutIdentity else attributes)

def filterIf (flag : Option Bool) (keep : Attributes → Bool) (node : Node) : Option Node :=
  if flag = some true then node.filter? keep else some node

/--
What an embed shows of a target: without outputs or inputs if it says so, and without identities.
-/
def shown? (embed : Attributes) (target : Node) : Option Node := do
  let target ← target.filterIf embed.removeOutput (fun node => !node.isOutput)
  let target ← target.filterIf embed.removeInput (fun node => !node.isInput)
  some target.anonymous

def unwrapped (node : Node) : List Node :=
  if node.is NodeType.block then node.children else [node]

/-- The embed filled with a copy of its target, or emptied where there is nothing to show. -/
def fill (target : Option Node) (embed : Node) : Node :=
  { embed with
    children := ((target.bind (shown? embed.toAttributes)).map unwrapped).getD [] }

end Node

/-! ## References in copied content -/

namespace Attributes

/-- A cross-reference of a remote page, pointed at the project of `reference`. -/
def rebaseCrossReference (reference attributes : Attributes) : Attributes :=
  if attributes.is NodeType.crossReference && attributes.remoteBaseUrl.isNone then
    let attributes := { attributes with remoteBaseUrl := reference.remoteBaseUrl }
    -- it was pointed out of that project already
    if attributes.isRemote = some true then attributes
    else
      { attributes with
        url := reference.url, dataUrl := reference.dataUrl, isRemote := some true }
  else attributes

def rebaseLink (reference attributes : Attributes) : Attributes :=
  if attributes.is NodeType.link && attributes.isInternal == some true then
    let base := reference.remoteBaseUrl.getD ""
    { attributes with
      isInternal := some false
      url := some (base ++ attributes.url.getD "")
      dataUrl := attributes.dataUrl.map (base ++ ·) }
  else attributes

def rebaseSource (reference attributes : Attributes) : Attributes :=
  { attributes with
    source := attributes.source.map (fun source =>
      { source with remoteBaseUrl := reference.remoteBaseUrl }) }

def rebase (reference attributes : Attributes) : Attributes :=
  rebaseSource reference (rebaseLink reference (rebaseCrossReference reference attributes))

/-- A reference to a place on its own page, made a reference to that place from anywhere. -/
def anchorTo (pageUrl : String) (attributes : Attributes) : Attributes :=
  if attributes.is NodeType.crossReference || attributes.is NodeType.link then
    { attributes with
      url := attributes.url.map (fun url =>
        if "#".toList.isPrefixOf url.toList then pageUrl ++ url else url) }
  else attributes

end Attributes

namespace Node

/-- Content of a remote page, every reference in it pointed at the project of `reference`. -/
def rebase (reference : Attributes) (content : Node) : Node :=
  content.mapAttributes (Attributes.rebase reference)

def anchorTo (pageUrl : String) (content : Node) : Node :=
  content.mapAttributes (Attributes.anchorTo pageUrl)

end Node

end CrossDoc
