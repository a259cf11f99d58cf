import CrossDoc.Json.Basic
import CrossDoc.Json.Token
import CrossDoc.Json.Record

/-!
# Reading JSON

A reader takes one token after another and keeps the arrays and objects that are still open. A text
is accepted only as a whole, and what is read is a draft first: its parts are put together, but what
strings and numbers amount to is left open. A draft gives a value only for the parts that are looked
at; a number that is too large, half a character, or nesting that is too deep matters in those parts
alone.
-/

namespace CrossDoc.Json

/-- A JSON text, read as far as its grammar goes. -/
inductive Draft where
  | word (value : Json)
  | number (numeral : Numeral)
  | text (literal : StringLiteral)
  | arr (items : List Draft)
  | obj (members : List (StringLiteral × Draft))

namespace Draft

instance : Inhabited Draft := ⟨.word .null⟩

mutual
/--
The value of the parts that a shape looks at, if all of them have values and none is nested deeper
than `limit`. Members that are passed over are left out.
-/
def value? (limit : Nat) (shape : Shape) : Draft → Option Json
  | .word value => some value
  | .number numeral => numeral.value?
  | .text literal => literal.text?.map .str
  | .arr items => if limit = 0 then none else (items? (limit - 1) shape 0 items).map .arr
  | .obj members => if limit = 0 then none else (members? (limit - 1) shape members).map .obj

def items? (limit : Nat) (shape : Shape) (place : Nat) : List Draft → Option (List Json)
  | [] => some []
  | item :: rest => do
    let value ← value? limit (shape.item place) item
    let values ← items? limit shape (place + 1) rest
    some (value :: values)

def members? (limit : Nat) (shape : Shape) :
    List (StringLiteral × Draft) → Option (List (String × Json))
  | [] => some []
  | (literal, draft) :: rest => do
    let name ← literal.text?
    match shape.member? name with
    | none => members? limit shape rest
    | some inner => do
      let value ← value? limit inner draft
      let members ← members? limit shape rest
      some ((name, value) :: members)
end

end Draft

/-- An array or object that is still open, with what it holds so far, last first. -/
inductive Frame where
  | array (items : List Draft)
  | object (members : List (StringLiteral × Draft)) (name : StringLiteral)

/-- What a reader is waiting for, inside the open arrays and objects, innermost first. -/
inductive Reader where
  /-- A value; in an array that is still empty it may also be closed. -/
  | needValue (closable : Bool) (frames : List Frame)
  /-- The name of a member; an object that is still empty may also be closed. -/
  | needName (closable : Bool) (members : List (StringLiteral × Draft)) (frames : List Frame)
  | needColon (name : StringLiteral) (members : List (StringLiteral × Draft)) (frames : List Frame)
  | afterItem (items : List Draft) (frames : List Frame)
  | afterMember (members : List (StringLiteral × Draft)) (frames : List Frame)
  | done (draft : Draft)

namespace Reader

def close (draft : Draft) : List Frame → Reader
  | [] => .done draft
  | .array items :: frames => .afterItem (draft :: items) frames
  | .object members name :: frames => .afterMember ((name, draft) :: members) frames

def step : Reader → Token → Option Reader
  | .needValue _ frames, .openArray => some (.needValue true (.array [] :: frames))
  | .needValue _ frames, .openObject => some (.needName true [] frames)
  | .needValue _ frames, .text literal => some (close (.text literal) frames)
  | .needValue _ frames, .number numeral => some (close (.number numeral) frames)
  | .needValue _ frames, .word value => some (close (.word value) frames)
  -- where a value is due, an array may be closed only if it holds nothing yet
  | .needValue true (.array [] :: frames), .closeArray => some (close (.arr []) frames)
  | .needName true members frames, .closeObject => some (close (.obj members.reverse) frames)
  | .needName _ members frames, .text name => some (.needColon name members frames)
  | .needColon name members frames, .colon =>
    some (.needValue false (.object members name :: frames))
  | .afterItem items frames, .comma => some (.needValue false (.array items :: frames))
  | .afterItem items frames, .closeArray => some (close (.arr items.reverse) frames)
  | .afterMember members frames, .comma => some (.needName false members frames)
  | .afterMember members frames, .closeObject => some (close (.obj members.reverse) frames)
  | _, _ => none

def run (reader : Reader) (text : List Char) : Option Draft :=
  match text with
  | [] =>
    match reader with
    | .done draft => some draft
    | _ => none
  | c :: rest =>
    if isSpace c then run reader rest
    else
      match h : Token.next? c rest with
      | none => none
      | some (token, after) =>
        have := Token.length_next?_le h
        match reader.step token with
        | some reader => run reader after
        | none => none
termination_by text.length

end Reader

def Draft.parse? (text : String) : Option Draft :=
  Reader.run (.needValue false []) text.toList

/-- The value that a text spells, if it is a JSON text nested at most `limit` deep. -/
def parseWithin? (limit : Nat) (text : String) : Option Json :=
  (Draft.parse? text).bind (Draft.value? limit .whole)

def deepest : Nat := 127

def parse? (text : String) : Option Json := parseWithin? deepest text

def notJson : String := "syntax error"

/--
Reads a record from the text of a file, or says in words why that is not possible. Only the parts of
the text that the record looks at need to have values; but where no record comes of it, what is
wrong with the text as a whole is said first.
-/
def decodeText {α : Type} (decoder : Decoder α) (shape : Shape) (text : String) :
    Except String α :=
  match (Draft.parse? text).bind (Draft.value? deepest shape) with
  | none => .error notJson
  | some json =>
    (decoder .file json).mapError (fun fault =>
      if (parse? text).isSome then fault.message else notJson)

end CrossDoc.Json
