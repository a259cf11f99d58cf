import CrossDoc.Json.Binary64
import CrossDoc.SortedMap

/-!
# JSON values

Values of the data format documents, indices and settings are written in. An object lists its
members as they were written; its canonical form lists every name once, in order. The shape of a
value says which parts of it are looked at when a record is read from it: a record passes over the
members that are none of its fields, so nothing is asked of them but that they are written well.
-/

namespace CrossDoc

/-- A JSON value. Numbers without fraction and exponent stay integers. -/
inductive Json where
  | null
  | bool (b : Bool)
  | int (n : Int)
  | float (x : Binary64)
  | str (s : String)
  | arr (items : List Json)
  | obj (members : List (String × Json))
deriving Repr, Inhabited

namespace Json

/-- The value of a member of an object; of two members with one name the later counts. -/
def get? (name : String) : Json → Option Json
  | .obj members => (members.reverse.find? (fun member => member.1 == name)).map (·.2)
  | _ => none

def str? : Json → Option String
  | .str s => some s
  | _ => none

mutual
/-- The value with every object's members in order of their names, the last of a name alone kept. -/
def canonical : Json → Json
  | .arr items => .arr (canonicalItems items)
  | .obj members => .obj (SortedMap.ofList (canonicalMembers members)).entries
  | .null => .null
  | .bool b => .bool b
  | .int n => .int n
  | .float x => .float x
  | .str s => .str s

def canonicalItems : List Json → List Json
  | [] => []
  | item :: rest => item.canonical :: canonicalItems rest

def canonicalMembers : List (String × Json) → List (String × Json)
  | [] => []
  | (name, value) :: rest => (name, value.canonical) :: canonicalMembers rest
end

end Json

/-! ## Shapes -/

namespace Json

/-- What is looked at in a value. -/
inductive Shape where
  | whole
  | list (item : Shape)
  | record (fields : List (String × Shape))
  /--
  All members of an object, some of which have shapes; one member lists objects of the same shape.
  -/
  | tree (children : String) (members : List (String × Shape))

namespace Shape

def named? (name : String) (shapes : List (String × Shape)) : Option Shape :=
  (shapes.find? (fun row => row.1 == name)).map (·.2)

def member? (name : String) : Shape → Option Shape
  | .whole | .list _ => some .whole
  | .record fields => named? name fields
  | .tree children members =>
    if name = children then some (.list (.tree children members))
    else some ((named? name members).getD .whole)

def item (place : Nat) : Shape → Shape
  | .list item => item
  | .record fields => (fields[place]?.map (·.2)).getD .whole
  | .whole | .tree .. => .whole

end Shape

end Json

end CrossDoc
