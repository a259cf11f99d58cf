import CrossDoc.Json.Basic

/-!
# JSON tokens

The tokens of a JSON text: punctuation, strings, numbers and words. A number is written with digits
before a point, maybe digits after it, and maybe an exponent; a string with characters and escapes.
What is written that way need not have a value. A number may lie beyond the largest one there is,
and of two 16-bit units that make one character a string may lack a half.
-/

namespace CrossDoc.Json

structure Numeral where
  negative : Bool
  whole : List Char
  fraction : Option (List Char) := none
  exponent : Option Int := none
deriving DecidableEq, Repr

namespace Numeral

def digitValue (c : Char) : Nat := c.toNat - '0'.toNat

def digitsValue (digits : List Char) : Nat :=
  digits.foldl (fun number c => number * 10 + digitValue c) 0

def takeSign : List Char → Bool × List Char
  | '-' :: rest => (true, rest)
  | rest => (false, rest)

/-- The exponent written after `e`: an optional sign and at least one digit. -/
def exponent? (text : List Char) : Option Int :=
  let (negative, digits) :=
    match text with
    | '+' :: rest => (false, rest)
    | rest => takeSign rest
  if digits.isEmpty || digits.any (fun c => !c.isDigit) then none
  else some (if negative then -(digitsValue digits : Int) else digitsValue digits)

def isWhole : List Char → Bool
  | [] => false
  | '0' :: rest => rest.isEmpty
  | _ :: _ => true

def takeFraction : List Char → Option (List Char) × List Char
  | '.' :: rest => (some (rest.takeWhile Char.isDigit), rest.dropWhile Char.isDigit)
  | rest => (none, rest)

def ofText? (text : List Char) : Option Numeral :=
  let (negative, text) := takeSign text
  let whole := text.takeWhile Char.isDigit
  let (fraction, rest) := takeFraction (text.dropWhile Char.isDigit)
  if !isWhole whole || fraction == some [] then none
  else
    match rest with
    | [] => some { negative, whole, fraction }
    | c :: rest =>
      if c == 'e' || c == 'E' then
        (exponent? rest).map (fun exponent => { negative, whole, fraction, exponent })
      else none

/--
Reads digits on to a number that has to stay within 64 bits; the digits from the first that would
not fit are left over.
-/
def accumulate (number : Nat) : List Char → Nat × List Char
  | [] => (number, [])
  | c :: rest =>
    let next := number * 10 + digitValue c
    if next < UInt64.size then accumulate next rest else (number, c :: rest)

/--
The value of a number. It is an integer where it has neither fraction nor exponent and fits 64 bits,
with sign or without; otherwise it is a floating-point number, as is a negative zero. There is none
where the number lies beyond the largest one.
-/
def value? (numeral : Numeral) : Option Json :=
  let (number, left) := accumulate 0 numeral.whole
  let isInteger := left.isEmpty && numeral.fraction.isNone && numeral.exponent.isNone
  if isInteger && !numeral.negative then some (.int number)
  else if isInteger && 0 < number && number ≤ UInt64.size / 2 then some (.int (-(number : Int)))
  else
    let fraction := numeral.fraction.getD []
    let (number, cut) := accumulate number fraction
    let shift : Int := (left.length : Int) - ((fraction.length : Int) - cut.length)
    (Binary64.ofDecimal? numeral.negative number (shift + numeral.exponent.getD 0)).map .float

end Numeral

/-- A character of a string, or a 16-bit unit written in digits. -/
inductive StringPart where
  | char (c : Char)
  | unit (n : Nat)
deriving DecidableEq, Repr

abbrev StringLiteral := List StringPart

namespace StringLiteral

def hexValue? (c : Char) : Option Nat :=
  if c.isDigit then some (c.toNat - '0'.toNat)
  else if 'a' ≤ c && c ≤ 'f' then some (c.toNat - 'a'.toNat + 10)
  else if 'A' ≤ c && c ≤ 'F' then some (c.toNat - 'A'.toNat + 10)
  else none

def hexUnit? (a b c d : Char) : Option Nat := do
  let a ← hexValue? a
  let b ← hexValue? b
  let c ← hexValue? c
  let d ← hexValue? d
  some (((a * 16 + b) * 16 + c) * 16 + d)

def escapedChar? (c : Char) : Option Char :=
  if c = '"' || c = '\\' || c = '/' then some c
  else if c = 'b' then some (Char.ofNat 0x08)
  else if c = 'f' then some (Char.ofNat 0x0C)
  else if c = 'n' then some '\n'
  else if c = 'r' then some '\r'
  else if c = 't' then some '\t'
  else none

/-- Puts a part in front of a string that is read, together with what follows it. -/
def consPart (part : StringPart) (read : StringLiteral × List Char) : StringLiteral × List Char :=
  (part :: read.1, read.2)

/-- Reads the inside of a string up to its closing quote, and gives what follows the quote. -/
def read? : List Char → Option (StringLiteral × List Char)
  | [] => none
  | '"' :: rest => some ([], rest)
  | '\\' :: 'u' :: a :: b :: c :: d :: rest =>
    (hexUnit? a b c d).bind (fun unit => (read? rest).map (consPart (.unit unit)))
  | '\\' :: c :: rest =>
    (escapedChar? c).bind (fun char => (read? rest).map (consPart (.char char)))
  | c :: rest => if c.toNat < 0x20 then none else (read? rest).map (consPart (.char c))

theorem length_read?_lt {text after : List Char} {literal : StringLiteral}
    (h : read? text = some (literal, after)) : after.length < text.length := by
  fun_induction read? text generalizing literal with
  | case1 => simp at h
  | case2 rest => cases h; simp
  | case3 a b c d rest ih =>
      obtain ⟨unit, -, h⟩ := Option.bind_eq_some_iff.1 h
      obtain ⟨found, hfound, heq⟩ := Option.map_eq_some_iff.1 h
      cases heq
      have := ih hfound
      simp only [List.length_cons]
      omega
  | case4 c rest _ ih =>
      obtain ⟨char, -, h⟩ := Option.bind_eq_some_iff.1 h
      obtain ⟨found, hfound, heq⟩ := Option.map_eq_some_iff.1 h
      cases heq
      have := ih hfound
      simp only [List.length_cons]
      omega
  | case5 => simp at h
  | case6 c rest _ _ _ _ ih =>
      obtain ⟨found, hfound, heq⟩ := Option.map_eq_some_iff.1 h
      cases heq
      have := ih hfound
      simp only [List.length_cons]
      omega

/-- Whether a unit is the first half of a pair. -/
def isHigh (n : Nat) : Bool := 0xD800 ≤ n && n < 0xDC00

def isLow (n : Nat) : Bool := 0xDC00 ≤ n && n < 0xE000

/-- The characters of a string: two halves in a row make one, and no half may stand alone. -/
def chars? : StringLiteral → Option (List Char)
  | [] => some []
  | .char c :: rest => (chars? rest).map (c :: ·)
  | .unit high :: .unit low :: rest =>
    if isHigh high then
      if isLow low then
        (chars? rest).map (Char.ofNat (0x10000 + (high - 0xD800) * 0x400 + (low - 0xDC00)) :: ·)
      else none
    else if isLow high then none
    else (chars? (.unit low :: rest)).map (Char.ofNat high :: ·)
  | .unit n :: rest => if isHigh n || isLow n then none else (chars? rest).map (Char.ofNat n :: ·)

def text? (literal : StringLiteral) : Option String := literal.chars?.map String.ofList

end StringLiteral

inductive Token where
  | openArray
  | closeArray
  | openObject
  | closeObject
  | comma
  | colon
  | text (literal : StringLiteral)
  | number (numeral : Numeral)
  | word (value : Json)
deriving Repr

def isSpace (c : Char) : Bool := c == ' ' || c == '\n' || c == '\r' || c == '\t'

def isNumberChar (c : Char) : Bool :=
  c.isDigit || c == '-' || c == '+' || c == '.' || c == 'e' || c == 'E'

def word? (word : List Char) : Option Json :=
  if word = ['n', 'u', 'l', 'l'] then some .null
  else if word = ['t', 'r', 'u', 'e'] then some (.bool true)
  else if word = ['f', 'a', 'l', 's', 'e'] then some (.bool false)
  else none

def punctuation? (c : Char) : Option Token :=
  if c = '[' then some .openArray
  else if c = ']' then some .closeArray
  else if c = '\x7b' then some .openObject
  else if c = '\x7d' then some .closeObject
  else if c = ',' then some .comma
  else if c = ':' then some .colon
  else none

/--
The token at the front of a text that starts with `c`, which is no blank, and what follows it.
-/
def Token.next? (c : Char) (rest : List Char) : Option (Token × List Char) :=
  match punctuation? c with
  | some token => some (token, rest)
  | none =>
    if c = '"' then
      (StringLiteral.read? rest).map (fun read => (.text read.1, read.2))
    else if c = '-' || c.isDigit then
      (Numeral.ofText? (c :: rest.takeWhile isNumberChar)).map (fun numeral =>
        (.number numeral, rest.dropWhile isNumberChar))
    else
      (word? (c :: rest.takeWhile Char.isAlpha)).map (fun value =>
        (.word value, rest.dropWhile Char.isAlpha))

theorem length_dropWhile_le (p : Char → Bool) (text : List Char) :
    (text.dropWhile p).length ≤ text.length := by
  induction text with
  | nil => simp
  | cons c rest ih =>
      simp only [List.dropWhile_cons, List.length_cons]
      split
      · exact Nat.le_succ_of_le ih
      · exact Nat.le_refl _

theorem Token.length_next?_le {c : Char} {rest after : List Char} {token : Token}
    (h : Token.next? c rest = some (token, after)) : after.length ≤ rest.length := by
  unfold Token.next? at h
  split at h
  next => cases h; exact Nat.le_refl _
  next =>
    split at h
    next =>
      obtain ⟨read, hread, heq⟩ := Option.map_eq_some_iff.1 h
      cases heq
      exact Nat.le_of_lt (StringLiteral.length_read?_lt hread)
    next =>
      split at h
      next =>
        obtain ⟨numeral, -, heq⟩ := Option.map_eq_some_iff.1 h
        cases heq
        exact length_dropWhile_le _ _
      next =>
        obtain ⟨value, -, heq⟩ := Option.map_eq_some_iff.1 h
        cases heq
        exact length_dropWhile_le _ _

end CrossDoc.Json
