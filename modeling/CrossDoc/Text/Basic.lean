/-!
# Texts

Sets of code points as inclusive ranges, and what is done with the blanks among them: the words of a
text, and trimming. How a text is spelled in a url is left open: whoever runs the program brings a
`Slugger`.
-/

namespace CrossDoc.Text

abbrev Ranges := List (Nat × Nat)

def Ranges.has (ranges : Ranges) (c : Char) : Bool :=
  ranges.any (fun range => range.1 ≤ c.toNat && c.toNat ≤ range.2)

/-- The characters with the property White_Space. -/
def blankRanges : Ranges :=
  [(0x0009, 0x000D), (0x0020, 0x0020), (0x0085, 0x0085), (0x00A0, 0x00A0), (0x1680, 0x1680),
   (0x2000, 0x200A), (0x2028, 0x2029), (0x202F, 0x202F), (0x205F, 0x205F), (0x3000, 0x3000)]

def isBlank (c : Char) : Bool := blankRanges.has c

def consWord (c : Char) : List (List Char) → List (List Char)
  | [] => [[c]]
  | word :: rest => (c :: word) :: rest

/-- The pieces of a text between the characters that `p` holds of; there is always one. -/
def splitAt (p : Char → Bool) : List Char → List (List Char)
  | [] => [[]]
  | c :: rest => if p c then [] :: splitAt p rest else consWord c (splitAt p rest)

def words (text : List Char) : List (List Char) :=
  (splitAt isBlank text).filter (fun word => !word.isEmpty)

def join (separator : List Char) : List (List Char) → List Char
  | [] => []
  | [piece] => piece
  | piece :: rest => piece ++ separator ++ join separator rest

def trim (text : List Char) : List Char :=
  ((text.dropWhile isBlank).reverse.dropWhile isBlank).reverse

def cut? (c : Char) : List Char → Option (List Char × List Char)
  | [] => none
  | d :: rest =>
    if d == c then some ([], rest)
    else (cut? c rest).map (fun parts => (d :: parts.1, parts.2))

/-- Spells texts so that they can stand in a url. -/
class Slugger where
  slug : List Char → List Char

export Slugger (slug)

end CrossDoc.Text
