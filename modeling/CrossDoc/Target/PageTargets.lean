import CrossDoc.Settings
import CrossDoc.Target
import CrossDoc.Text.Basic
import CrossDoc.Text.LowerCase

/-!
# The targets of a page

Authors label what they want to refer to. Labels that differ in blanks at their ends, in the length
of blank runs or in case name the same thing, so look-ups go by an identifier derived from the
label. A page holds everything on it that can be referred to, by identifier, and the counters of its
numbering. The first target to claim an identifier keeps it. The page itself may be a target as
well.

Every kind of target is counted for itself; a heading has one counter for each depth, and its number
lists the counters down to its own. Counters are words of 32 bits: after the last one they start
over.
-/

namespace CrossDoc

structure Label where
  label : String
  identifier : String
deriving DecidableEq, Repr, Inhabited

namespace Label

def normalize? (label : String) : Option Label :=
  match Text.words label.toList with
  | [] => none
  | words =>
    let tidy := Text.join [' '] words
    some { label := String.ofList tidy, identifier := String.ofList (Text.lower tidy) }

def identifier? (label : String) : Option String := (normalize? label).map (·.identifier)

/-- The anchor of an identifier: its slug, or the identifier itself where the slug is empty. -/
def anchor [Text.Slugger] (identifier : String) : String :=
  match Text.slug identifier.toList with
  | [] => identifier
  | slug => String.ofList slug

end Label

/-! ## Numbers -/

/-- The depth of the deepest heading that has a counter of its own. -/
def deepestHeading : Nat := 6

def countedDepth (depth : UInt32) : Nat := max 1 (min depth.toNat deepestHeading)

def Numbering.numbers (numbering : Numbering) : TargetKind → Bool
  | .figure => numbering.figure
  | .table => numbering.table
  | .code => numbering.code
  | .equation => numbering.equation
  | .heading => numbering.headings
  | .page | .generic => false

/-- How many targets of each kind have been numbered, and the counters of the headings by depth. -/
structure Counters where
  counts : TargetKind → UInt32 := fun _ => 0
  headings : List UInt32 := List.replicate deepestHeading 0

namespace Counters

instance : Inhabited Counters := ⟨{}⟩

/-- Adds one at a place, where what comes after it starts again from zero. -/
def advance : Nat → List UInt32 → List UInt32
  | _, [] => []
  | 0, count :: deeper => (count + 1) :: deeper.map (fun _ => 0)
  | place + 1, count :: deeper => count :: advance place deeper

def next (counters : Counters) (kind : TargetKind) : UInt32 × Counters :=
  let number := counters.counts kind + 1
  (number,
    { counters with counts := fun other => if other = kind then number else counters.counts other })

/-- The counters that a heading's number lists, from the first depth that is numbered to its own. -/
def headingNumbers (start depth : Nat) (headings : List UInt32) : List UInt32 :=
  (headings.take depth).drop (start - 1)

/--
Counts one more heading and gives its number, unless headings are not numbered or this one is not
deep enough; then nothing is counted.
-/
def nextHeading? (numbering : Numbering) (depth : UInt32) (counters : Counters) :
    Option (List UInt32 × Counters) :=
  let start := countedDepth numbering.headingStart
  let depth := countedDepth depth
  if numbering.headings && start ≤ depth then
    let headings := advance (depth - 1) counters.headings
    some (headingNumbers start depth headings, { counters with headings })
  else none

def dotted {α : Type} [ToString α] (numbers : List α) : String :=
  ".".intercalate (numbers.map toString)

def assign (numbering : Numbering) (counters : Counters) (attributes : Attributes) :
    Option String × Counters :=
  if attributes.enumerated = some false then (none, counters)
  else
    match TargetKind.ofNode? attributes with
    | none => (none, counters)
    | some .heading =>
      match nextHeading? numbering (attributes.depth.getD 1) counters with
      | some (numbers, counters) => (some (dotted numbers), counters)
      | none => (none, counters)
    | some kind =>
      if numbering.numbers kind then
        let (number, counters) := counters.next kind
        (some (toString number), counters)
      else (none, counters)

end Counters

/-! ## Targets by identifier -/

structure PageTargets where
  file : String
  url : String
  numbering : Numbering := {}
  targets : SortedMap Target := ∅
  fileTarget : Option String := none
  counters : Counters := {}

instance : Inhabited PageTargets := ⟨{ file := "", url := "" }⟩

namespace PageTargets

/-- Makes the page itself a target, under a label that has an identifier. -/
def withFileTarget [Text.Slugger] (page : PageTargets) (label : String) (title : Option String) :
    PageTargets :=
  match Label.identifier? label with
  | none => page
  | some identifier =>
    { page with
      targets := page.targets.insert identifier
        { identifier, kind := .page, htmlId := Label.anchor identifier, url := page.url, title }
      fileTarget := some identifier }

def contains (page : PageTargets) (identifier : String) : Bool := page.targets.contains identifier

def isFileTarget (page : PageTargets) (identifier : String) : Bool :=
  page.fileTarget == some identifier

def withAnchor? (page : PageTargets) (anchor : String) : Option Target :=
  page.targets.values.find? (fun target => target.htmlId == anchor)

/-- The target with an identifier, or else the first one with that anchor. -/
def resolve? (page : PageTargets) (identifier : String) : Option Target :=
  page.targets.get? identifier <|> page.withAnchor? identifier

def targetUrl (page : PageTargets) (anchor : String) : String := page.url ++ "#" ++ anchor

def register (page : PageTargets) (target : Target) : PageTargets :=
  { page with targets := page.targets.insert target.identifier target }

end PageTargets

end CrossDoc
