import CrossDoc.External.Cache
import Mathlib.Algebra.GroupWithZero.Nat

/-!
# Concurrent calls in a session

Any number of callers ask for pages and indices at once, and take their turns in any order. A table
has a cell for every url that was looked up, and whoever looks a url up is given its cell: under the
lock of the table one caller at a time finds the cell of a url or enters a new one. After that a
caller knows nothing but its cell. Whoever finds it empty fills it: sends a request for its own url
and puts what the response reads as into the cell, which wakes those who hold it. A cell lets one
caller at a time fill it. No caller gives up.
-/

namespace CrossDoc

/-- A cell that is filled once. -/
inductive OnceCell (α : Type) where
  | empty
  | filling
  | filled (value : α)

def OnceCell.value? {α : Type} : OnceCell α → Option α
  | .filled value => some value
  | .empty | .filling => none

/-- How far a caller has come, with the cell it was given. -/
inductive CallStage (α : Type) where
  | asking
  | waiting (cell : Nat)
  | fetching (cell : Nat)
  | answered (answer : Option α)

namespace CallStage

variable {α : Type}

def hasLookedUp : CallStage α → Bool
  | .asking => false
  | .waiting _ | .fetching _ | .answered _ => true

def cell? : CallStage α → Option Nat
  | .waiting cell | .fetching cell => some cell
  | .asking | .answered _ => none

def answer? : CallStage α → Option (Option α)
  | .answered answer => some answer
  | .asking | .waiting _ | .fetching _ => none

def turns : CallStage α → Nat
  | .asking => 3
  | .waiting _ => 2
  | .fetching _ => 1
  | .answered _ => 0

end CallStage

structure Call (α : Type) where
  url : String
  stage : CallStage α := .asking

/--
A table with those who have called for its urls, in the order of their calls, and the requests that
were sent and the responses that came, each in order. The slot of a url is the place of its cell.
-/
structure Desk (α : Type) where
  slots : SortedMap Nat := ∅
  cells : List (OnceCell (Option α)) := []
  calls : List (Call α) := []
  requests : List String := []
  responses : List (String × Option Json) := []

namespace Desk

variable {α : Type}

def read (decoder : Json.Decoder α) (response : Option Json) : Option α :=
  response.bind (fun json => (decoder .value json).toOption)

def call (desk : Desk α) (url : String) : Desk α :=
  { desk with calls := desk.calls ++ [{ url }] }

def At (desk : Desk α) (place : Nat) (url : String) (stage : CallStage α) : Prop :=
  desk.calls[place]? = some { url, stage }

def advance (desk : Desk α) (place : Nat) (url : String) (stage : CallStage α) : Desk α :=
  { desk with calls := desk.calls.set place { url, stage } }

/-- A turn of one of the callers. -/
inductive Turn (decoder : Json.Decoder α) (desk : Desk α) : Desk α → Prop where
  | lookUp {place cell : Nat} {url : String} (hcall : desk.At place url .asking)
      (hslot : desk.slots.get? url = some cell) :
      Turn decoder desk (desk.advance place url (.waiting cell))
  | enter {place : Nat} {url : String} (hcall : desk.At place url .asking)
      (hnew : desk.slots.get? url = none) :
      Turn decoder desk
        { desk.advance place url (.waiting desk.cells.length) with
          slots := desk.slots.insert url desk.cells.length
          cells := desk.cells ++ [.empty] }
  | request {place cell : Nat} {url : String} (hcall : desk.At place url (.waiting cell))
      (hempty : desk.cells[cell]? = some .empty) :
      Turn decoder desk
        { desk.advance place url (.fetching cell) with
          cells := desk.cells.set cell .filling
          requests := desk.requests ++ [url] }
  | receive {place cell : Nat} {url : String} (response : Option Json)
      (hcall : desk.At place url (.fetching cell)) :
      Turn decoder desk
        { desk.advance place url (.answered (read decoder response)) with
          cells := desk.cells.set cell (.filled (read decoder response))
          responses := desk.responses ++ [(url, response)] }
  | wake {place cell : Nat} {url : String} {answer : Option α}
      (hcall : desk.At place url (.waiting cell))
      (hfilled : desk.cells[cell]? = some (.filled answer)) :
      Turn decoder desk (desk.advance place url (.answered answer))

def turns (desk : Desk α) : Nat := (desk.calls.map (fun call => call.stage.turns)).sum

def IsDone (desk : Desk α) : Prop := ∀ call ∈ desk.calls, call.stage.answer?.isSome = true

end Desk

/-! ## Loading projects -/

/-- A project that is being loaded, with the place of the call for its index if it has one. -/
structure Ticket where
  project : ExternalProject
  place : Option Nat

namespace Ticket

def issue : List ExternalProject → Desk RemoteIndex → List Ticket × Desk RemoteIndex
  | [], desk => ([], desk)
  | project :: rest, desk =>
    match project.kind with
    | .generic =>
      let (tickets, desk) := issue rest desk
      ({ project, place := none } :: tickets, desk)
    | .myst =>
      let (tickets, called) := issue rest (desk.call project.indexUrl)
      ({ project, place := some desk.calls.length } :: tickets, called)

def record? (desk : Desk RemoteIndex) (ticket : Ticket) : Option ProjectReference :=
  match ticket.place with
  | none => some ticket.project.unloaded
  | some place =>
    ((desk.calls[place]?).bind (fun call => call.stage.answer?)).map (fun index =>
      { ticket.project.unloaded with index })

def records? (desk : Desk RemoteIndex) (tickets : List Ticket) : Option (List ProjectReference) :=
  tickets.mapM (record? desk)

end Ticket

/-- The calls of a session: for pages, for indices, and for the projects that wait for them. -/
structure Session where
  pages : Desk RemotePage := {}
  indices : Desk RemoteIndex := {}
  loads : List (List Ticket) := []

namespace Session

def load (session : Session) (projects : List ExternalProject) : Session :=
  let (tickets, indices) := Ticket.issue projects session.indices
  { session with indices, loads := session.loads ++ [tickets] }

def pageCount (session : Session) : Nat := session.pages.slots.size

inductive Step (session : Session) : Session → Prop where
  | fetch (url : String) : Step session { session with pages := session.pages.call url }
  | load (projects : List ExternalProject) : Step session (session.load projects)
  | page {pages : Desk RemotePage} (turn : session.pages.Turn RemotePage.decode pages) :
      Step session { session with pages }
  | index {indices : Desk RemoteIndex} (turn : session.indices.Turn RemoteIndex.decode indices) :
      Step session { session with indices }

inductive Reachable : Session → Prop where
  | start : Reachable {}
  | step {session next : Session} (h : Reachable session) (hstep : Step session next) :
      Reachable next

end Session

end CrossDoc
