import CrossDoc.Json.Basic
import CrossDoc.Text.Quoted

/-!
# Writing JSON

Two layouts: on one line, and one item or member a line, indented by two spaces a level.
-/

namespace CrossDoc.Json

/-- How a character stands in a string: only quotes, backslashes and controls are escaped. -/
def escaped (c : Char) : List Char :=
  if c = '"' then ['\\', '"']
  else if c = '\\' then ['\\', '\\']
  else if c.toNat = 0x08 then ['\\', 'b']
  else if c.toNat = 0x0C then ['\\', 'f']
  else if c = '\n' then ['\\', 'n']
  else if c = '\r' then ['\\', 'r']
  else if c = '\t' then ['\\', 't']
  else if c.toNat < 0x20 then
    ['\\', 'u', '0', '0'] ++ (if c.toNat < 0x10 then ['0'] else []) ++ Text.hexDigits c.toNat
  else [c]

def renderText (s : String) : List Char :=
  '"' :: (s.toList.flatMap escaped ++ ['"'])

def renderInt (n : Int) : List Char :=
  if n < 0 then '-' :: Nat.toDigits 10 n.natAbs else Nat.toDigits 10 n.natAbs

mutual
def render : Json → List Char
  | .null => ['n', 'u', 'l', 'l']
  | .bool true => ['t', 'r', 'u', 'e']
  | .bool false => ['f', 'a', 'l', 's', 'e']
  | .int n => renderInt n
  | .float x => x.render
  | .str s => renderText s
  | .arr items => '[' :: (renderItems items ++ [']'])
  | .obj members => '\x7b' :: (renderMembers members ++ ['\x7d'])

def renderItems : List Json → List Char
  | [] => []
  | [item] => item.render
  | item :: rest => item.render ++ ',' :: renderItems rest

def renderMembers : List (String × Json) → List Char
  | [] => []
  | [(name, value)] => renderText name ++ ':' :: value.render
  | (name, value) :: rest => renderText name ++ ':' :: (value.render ++ ',' :: renderMembers rest)
end

def newLine (level : Nat) : List Char := '\n' :: List.replicate (2 * level) ' '

mutual
/-- A value spread over lines, where `level` is the indentation of the line it starts on. -/
def pretty (level : Nat) : Json → List Char
  | .arr [] => ['[', ']']
  | .arr (item :: rest) =>
    '[' :: (newLine (level + 1) ++ item.pretty (level + 1) ++ prettyItems (level + 1) rest ++
      newLine level ++ [']'])
  | .obj [] => ['\x7b', '\x7d']
  | .obj ((name, value) :: rest) =>
    '\x7b' :: (newLine (level + 1) ++ renderText name ++ ':' :: ' ' :: value.pretty (level + 1) ++
      prettyMembers (level + 1) rest ++ newLine level ++ ['\x7d'])
  | .null => ['n', 'u', 'l', 'l']
  | .bool true => ['t', 'r', 'u', 'e']
  | .bool false => ['f', 'a', 'l', 's', 'e']
  | .int n => renderInt n
  | .float x => x.render
  | .str s => renderText s

def prettyItems (level : Nat) : List Json → List Char
  | [] => []
  | item :: rest => ',' :: (newLine level ++ item.pretty level ++ prettyItems level rest)

def prettyMembers (level : Nat) : List (String × Json) → List Char
  | [] => []
  | (name, value) :: rest =>
    ',' :: (newLine level ++ renderText name ++ ':' :: ' ' :: value.pretty level ++
      prettyMembers level rest)
end

def toLine (value : Json) : String := String.ofList value.render

def toText (value : Json) : String := String.ofList (value.pretty 0)

end CrossDoc.Json
