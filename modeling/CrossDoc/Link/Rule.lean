import CrossDoc.Node.Walk
import CrossDoc.Report

/-!
# Link rules

A rule owns one way of writing links. A link goes to the first rule that claims its url; a link that
no rule claims is left alone. What becomes of a link depends on that link only.
-/

namespace CrossDoc

/-- What a rule makes of a link: warnings, and either an error or the link with its destination. -/
structure LinkAnswer where
  warnings : List Diagnostic := []
  result : Except Diagnostic Attributes

/-- A way of writing links: which urls it claims and what it makes of a link. -/
structure LinkRule where
  protocol : String
  claims : String → Bool
  resolve : Attributes → LinkAnswer

inductive LinkOutcome where
  | resolved
  | failed
  | unhandled
deriving DecidableEq, Repr, Inhabited

structure LinkOffer where
  outcome : LinkOutcome
  link : Attributes
  found : List Diagnostic := []

structure LinkSummary where
  resolved : Nat
  failed : Nat
  unhandled : Nat
deriving DecidableEq, Repr, Inhabited

namespace LinkAnswer

def isResolved (answer : LinkAnswer) : Bool :=
  match answer.result with
  | .ok _ => true
  | .error _ => false

def link (answer : LinkAnswer) (link : Attributes) : Attributes :=
  match answer.result with
  | .ok resolved => resolved
  | .error _ => link

def found (answer : LinkAnswer) : List Diagnostic :=
  match answer.result with
  | .ok _ => answer.warnings
  | .error diagnostic => answer.warnings ++ [diagnostic]

end LinkAnswer

/-- Rules in the order in which they are asked. -/
abbrev LinkRules := List LinkRule

namespace LinkRules

def owner? (rules : LinkRules) (uri : String) : Option LinkRule :=
  rules.find? (fun rule => rule.claims uri)

/--
Offers a link to the rules. The url it was offered under is kept on a link that some rule claims.
-/
def offer (rules : LinkRules) (link : Attributes) : LinkOffer :=
  match link.writtenUrl with
  | none => { outcome := .unhandled, link }
  | some uri =>
    match rules.owner? uri with
    | none => { outcome := .unhandled, link }
    | some rule =>
      -- kept before the rule replaces the url, and also if it fails
      let link := { link with urlSource := some uri }
      let answer := rule.resolve link
      match answer.result with
      | .ok resolved =>
        { outcome := .resolved
          link := { resolved with protocol := some rule.protocol }
          found := answer.found }
      | .error _ => { outcome := .failed, link, found := answer.found }

def treat (rules : LinkRules) (attributes : Attributes) : Attributes :=
  if attributes.is NodeType.link then (rules.offer attributes).link else attributes

def links (tree : Node) : List Node := tree.selectAll (fun node => node.is NodeType.link)

def apply (rules : LinkRules) (tree : Node) : Node := tree.mapAttributes rules.treat

def findings (rules : LinkRules) (tree : Node) : List Diagnostic :=
  (links tree).flatMap (fun node => (rules.offer node.toAttributes).found)

def count (rules : LinkRules) (tree : Node) (outcome : LinkOutcome) : Nat :=
  (links tree).countP (fun node => (rules.offer node.toAttributes).outcome == outcome)

def summary (rules : LinkRules) (tree : Node) : LinkSummary where
  resolved := rules.count tree .resolved
  failed := rules.count tree .failed
  unhandled := rules.count tree .unhandled

end LinkRules

end CrossDoc
