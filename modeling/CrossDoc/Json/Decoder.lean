import CrossDoc.Json.Basic
import CrossDoc.Text.Quoted

/-!
# Decoders

How strings, numbers, lists, maps and variants are read from values, what keeps a value from being
read, and how that is put into words. A record is read part by part, and every part stands at a
place of its source. Where several parts are at fault, the fault at the earliest place is the one
that is named, in whatever order the parts are asked for.
-/

namespace CrossDoc.Json

/--
Where a value comes from: one already held, or the text of a file. Some faults are worded apart.
-/
inductive Medium where
  | value
  | file
deriving DecidableEq, Repr

inductive Expected where
  | text
  | boolean
  | word32
  | word64
  | sequence
  | mapping
  | nothing
  | variant
  | record (name : String)
deriving DecidableEq, Repr

inductive Fault where
  | wrongType (found : Json) (expected : Expected)
  | outOfRange (n : Int) (expected : Expected)
  | missing (field : String)
  | duplicate (field : String)
  | unknownVariant (name : String) (known : List String)
  | notOneMember
  | tooShort (place : Nat) (record : String) (fields : Nat)
  | tooLong (length : Nat)
  | trailing
  | noVariant
deriving Repr

def Expected.describe : Expected → String
  | .text => "a string"
  | .boolean => "a boolean"
  | .word32 => "u32"
  | .word64 => "u64"
  | .sequence => "a sequence"
  | .mapping => "a map"
  | .nothing => "unit"
  | .variant => "string or map"
  | .record name => "struct " ++ name

def describe : Json → String
  | .null => "null"
  | .bool b => "boolean `" ++ (if b then "true" else "false") ++ "`"
  | .int n => "integer `" ++ toString n ++ "`"
  | .float x => "floating point `" ++ String.ofList x.render ++ "`"
  | .str s => "string " ++ String.ofList (Text.quoted s.toList)
  | .arr _ => "sequence"
  | .obj _ => "map"

def backquotedList (names : List String) : String :=
  ", ".intercalate (names.map (fun name => "`" ++ name ++ "`"))

def Fault.message : Fault → String
  | .wrongType found expected =>
    "invalid type: " ++ found.describe ++ ", expected " ++ expected.describe
  | .outOfRange n expected =>
    "invalid value: integer `" ++ toString n ++ "`, expected " ++ expected.describe
  | .missing field => "missing field `" ++ field ++ "`"
  | .duplicate field => "duplicate field `" ++ field ++ "`"
  | .unknownVariant name known =>
    "unknown variant `" ++ name ++ "`, expected " ++
      match known with
      | [first, second] => "`" ++ first ++ "` or `" ++ second ++ "`"
      | _ => "one of " ++ backquotedList known
  | .notOneMember => "invalid value: map, expected map with a single key"
  | .tooShort place record fields =>
    "invalid length " ++ toString place ++ ", expected struct " ++ record ++ " with " ++
      toString fields ++ (if fields = 1 then " element" else " elements")
  | .tooLong length =>
    "invalid length " ++ toString length ++ ", expected fewer elements in array"
  | .trailing => "trailing characters"
  | .noVariant => "expected value"

/-! ## Decoders -/

abbrev Decoder (α : Type) := Medium → Json → Except Fault α

namespace Decoder

variable {α β : Type}

def text : Decoder String
  | _, .str s => .ok s
  | _, other => .error (.wrongType other .text)

def boolean : Decoder Bool
  | _, .bool b => .ok b
  | _, other => .error (.wrongType other .boolean)

def word32 : Decoder UInt32
  | _, .int n =>
    if 0 ≤ n ∧ n.toNat < UInt32.size then .ok (UInt32.ofNat n.toNat)
    else .error (.outOfRange n .word32)
  | _, other => .error (.wrongType other .word32)

def word64 : Decoder UInt64
  | _, .int n =>
    if 0 ≤ n ∧ n.toNat < UInt64.size then .ok (UInt64.ofNat n.toNat)
    else .error (.outOfRange n .word64)
  | _, other => .error (.wrongType other .word64)

def list (item : Decoder α) : Decoder (List α)
  | medium, .arr items => items.mapM (item medium)
  | _, other => .error (.wrongType other .sequence)

/-- Reads an object as a map; of two members with one name the later counts. -/
def map (value : Decoder α) : Decoder (SortedMap α)
  | medium, .obj members => do
    let entries ← members.mapM (fun member => do
      let value ← value medium member.2
      .ok (member.1, value))
    .ok (SortedMap.ofList entries)
  | _, other => .error (.wrongType other .mapping)

def named (known : List (String × α)) (name : String) : Except Fault α :=
  match known.find? (fun row => row.1 == name) with
  | some row => .ok row.2
  | none => .error (.unknownVariant name (known.map (·.1)))

/--
Reads a variant by its name, which stands alone or as the only member of an object, over null.
-/
def variant (known : List (String × α)) : Decoder α
  | _, .str name => named known name
  | .value, .obj [(name, content)] => do
    let result ← named known name
    match content with
    | .null => .ok result
    | other => .error (.wrongType other .nothing)
  | .value, .obj _ => .error .notOneMember
  | .value, other => .error (.wrongType other .variant)
  | .file, .obj ((name, content) :: rest) => do
    let result ← named known name
    match content, rest with
    | .null, [] => .ok result
    | .null, _ :: _ => .error .noVariant
    | other, _ => .error (.wrongType other .nothing)
  | .file, _ => .error .noVariant

end Decoder

/-! ## Readings -/

inductive Reading (α : Type) where
  | value (a : α)
  | fault (place : Nat) (wrong : Fault)

namespace Reading

variable {α β : Type}

def ofExcept (place : Nat) : Except Fault α → Reading α
  | .ok a => .value a
  | .error wrong => .fault place wrong

def toExcept : Reading α → Except Fault α
  | .value a => .ok a
  | .fault _ wrong => .error wrong

/--
Applies what one part gives to what another gives. Of two faults the one at the earlier place stays,
and the first part's if they share their place.
-/
def apply : Reading (α → β) → Reading α → Reading β
  | .value f, .value a => .value (f a)
  | .value _, .fault place wrong => .fault place wrong
  | .fault place wrong, .value _ => .fault place wrong
  | .fault place wrong, .fault otherPlace otherWrong =>
    if otherPlace < place then .fault otherPlace otherWrong else .fault place wrong

instance : Applicative Reading where
  pure := .value
  seq f a := f.apply (a ())

end Reading

end CrossDoc.Json
