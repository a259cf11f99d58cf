import CrossDoc.Json.Decoder
import CrossDoc.Json.Basic

/-!
# Records in JSON

A record is written as an object with a member for each of its fields and read back from such an
object, or from an array of its fields in order. The fault that shows first in the source is the one
that is named; a field without a value counts as a fault at the end.
-/

namespace CrossDoc.Json

/-! ## Fields -/

structure Field where
  name : String
  /-- Whether an array of fields may end before it. -/
  omissible : Bool
  shape : Shape

/-- A field that an array of fields must have. -/
def Field.needed (name : String) (shape : Shape := .whole) : Field := ⟨name, false, shape⟩

/-- A field that an array of fields may end before. -/
def Field.spare (name : String) (shape : Shape := .whole) : Field := ⟨name, true, shape⟩

def Shape.ofFields (fields : List Field) : Shape :=
  .record (fields.map (fun field => (field.name, field.shape)))

/-! ## Members -/

/-- The values that a record is read from, by name and in the order of the source. -/
structure Members where
  medium : Medium
  values : List (String × Json)

def locate? (name : String) (place : Nat) : List (String × Json) → Option (Nat × Json)
  | [] => none
  | member :: rest =>
    if member.1 = name then some (place, member.2) else locate? name (place + 1) rest

namespace Members

variable {α : Type} (members : Members) (name : String)

def find? : Option (Nat × Json) := locate? name 0 members.values

def required (value : Decoder α) : Reading α :=
  match members.find? name with
  | some (place, json) => .ofExcept place (value members.medium json)
  -- shows at the end, so that a fault in a value that is there comes first
  | none => .fault members.values.length (.missing name)

/-- Reads a field that may be absent; null counts as absent. -/
def optional (value : Decoder α) : Reading (Option α) :=
  match members.find? name with
  | none | some (_, .null) => .value none
  | some (place, json) => .ofExcept place ((value members.medium json).map some)

def orDefault (value : Decoder α) (default : α) : Reading α :=
  match members.find? name with
  | some (place, json) => .ofExcept place (value members.medium json)
  | none => .value default

end Members

/-! ## Records -/

def repeated? (fields seen : List String) (place : Nat) :
    List (String × Json) → Option (Nat × String)
  | [] => none
  | (name, _) :: rest =>
    if !fields.contains name then repeated? fields seen (place + 1) rest
    else if seen.contains name then some (place, name)
    else repeated? fields (name :: seen) (place + 1) rest

def checkUnique (fields : List String) (values : List (String × Json)) : Reading Unit :=
  match repeated? fields [] 0 values with
  | some (place, name) => .fault place (.duplicate name)
  | none => .value ()

def lacking? (fields : List Field) (length : Nat) : Option Nat :=
  (fields.drop length).findIdx? (fun field => !field.omissible) |>.map (· + length)

def checkLength (record : String) (fields : List Field) (medium : Medium) (length : Nat) :
    Reading Unit :=
  match lacking? fields length with
  | some place => .fault length (.tooShort place record fields.length)
  | none =>
    if length ≤ fields.length then .value ()
    else
      match medium with
      | .value => .fault length (.tooLong length)
      | .file => .fault length .trailing

/-- Reads a record from an object or from an array of its fields. -/
def record {α : Type} (name : String) (fields : List Field) (read : Members → Reading α) :
    Decoder α
  | medium, .obj values =>
    (checkUnique (fields.map (·.name)) values *> read ⟨medium, values⟩).toExcept
  | medium, .arr items =>
    (checkLength name fields medium items.length *>
      read ⟨medium, (fields.map (·.name)).zip items⟩).toExcept
  | _, other => .error (.wrongType other (.record name))

/-! ## Writing -/

/-- A member for a field that is written only if it has a value. -/
def member? {α : Type} (name : String) (toJson : α → Json) : Option α → List (String × Json)
  | some value => [(name, toJson value)]
  | none => []

def orNull {α : Type} (toJson : α → Json) : Option α → Json
  | some value => toJson value
  | none => .null

def texts (items : List String) : Json := .arr (items.map .str)

def nat (n : Nat) : Json := .int n

end CrossDoc.Json
