/-!
# Binary floating-point numbers

The finite numbers of the 64-bit binary format, with rounding to the nearest one (a tie goes to the
even significand) and the shortest decimal that names one. All arithmetic is exact on natural
numbers.
-/

namespace CrossDoc

/--
A finite number of the 64-bit binary format: its magnitude is `significand * 2 ^ shift / 2 ^ 1074`,
where the significand has at most 53 bits, and all 53 unless `shift` is zero.
-/
structure Binary64 where
  negative : Bool
  significand : Nat
  shift : Nat
deriving DecidableEq, Repr

namespace Binary64

/-- The nearest integer to a quotient; a tie goes to the even one. -/
def roundQuotient (num den : Nat) : Nat :=
  let quotient := num / den
  let remainder := num % den
  if 2 * remainder < den then quotient
  else if den < 2 * remainder then quotient + 1
  else quotient + quotient % 2

def ofQuotient? (negative : Bool) (num den : Nat) : Option Binary64 :=
  let scaled := num * Nat.pow 2 1074
  let shift := Nat.log2 (scaled / den) - 52
  let rounded := roundQuotient scaled (den * Nat.pow 2 shift)
  let result : Binary64 :=
    -- rounding up may take one bit too many
    if rounded = Nat.pow 2 53 then ⟨negative, Nat.pow 2 52, shift + 1⟩
    else ⟨negative, rounded, shift⟩
  if result.shift ≤ 2045 then some result else none

def magnitude (x : Binary64) : Nat := x.significand * Nat.pow 2 x.shift

def timesPowerOfTen? (x : Binary64) (power : Nat) : Option Binary64 := do
  let factor ← ofQuotient? false (Nat.pow 10 power) 1
  ofQuotient? x.negative (x.magnitude * factor.magnitude) (Nat.pow 2 2148)

def overPowerOfTen? (x : Binary64) (power : Nat) : Option Binary64 := do
  let divisor ← ofQuotient? false (Nat.pow 10 power) 1
  ofQuotient? x.negative x.magnitude divisor.magnitude

/-- Divides by `10 ^ step` a number of times, rounding after each division; zero stays as it is. -/
def overRepeatedly? (step : Nat) : Nat → Binary64 → Option Binary64
  | 0, x => some x
  | times + 1, x =>
    if x.significand = 0 then some x
    else (x.overPowerOfTen? step).bind (overRepeatedly? step times)

def scaleDown? (x : Binary64) (power : Nat) : Option Binary64 := do
  let times := (power - 1) / 308
  let y ← overRepeatedly? 308 times x
  y.overPowerOfTen? (power - 308 * times)

/--
The number that the decimal `digits * 10 ^ exponent` is read as: the digits are rounded first, and
the scaling by a power of ten is rounded again. Nothing where the result would be too large.
-/
def ofDecimal? (negative : Bool) (digits : Nat) (exponent : Int) : Option Binary64 := do
  let start ← ofQuotient? negative digits 1
  if exponent < 0 then start.scaleDown? exponent.natAbs
  else if exponent ≤ 308 then start.timesPowerOfTen? exponent.natAbs
  else if start.significand = 0 then some start
  else none

/--
Four times the magnitude, less and plus what may be lost without reading back as another number.
-/
def interval (x : Binary64) : Nat × Nat :=
  -- below a power of two the numbers lie twice as close
  let below := if x.significand = Nat.pow 2 52 && x.shift != 0 then 1 else 2
  ((4 * x.significand - below) * Nat.pow 2 x.shift,
    (4 * x.significand + 2) * Nat.pow 2 x.shift)

/--
The multiple of `10 ^ exponent` next to the magnitude that reads back as `x`, if there is one: the
nearer of the two neighbours, or the even one of two that are equally near.
-/
def decimalAt? (x : Binary64) (exponent : Int) : Option Nat :=
  let up := Nat.pow 10 exponent.toNat * Nat.pow 2 1076
  let down := Nat.pow 10 (-exponent).toNat
  let value := 4 * x.magnitude * down
  let low := x.interval.1 * down
  let high := x.interval.2 * down
  let readsBack (k : Nat) : Bool :=
    -- a tie goes to the even one, so its interval is closed
    if x.significand % 2 = 0 then low ≤ k * up && k * up ≤ high
    else low < k * up && k * up < high
  let floor := value / up
  match readsBack floor, readsBack (floor + 1) with
  | true, true => some (roundQuotient value up)
  | true, false => some floor
  | false, true => some (floor + 1)
  | false, false => none

def shortest (x : Binary64) : Nat × Int :=
  -- from the greatest power of ten down, so that the first hit has the fewest digits
  ((List.range 700).findSome? (fun (i : Nat) =>
    let exponent : Int := 308 - Int.ofNat i
    (x.decimalAt? exponent).map (fun digits => (digits, exponent)))).getD (0, 0)

/--
The text of a number: the shortest decimal that reads back, with the point written out from `10 ^
-5` up to `10 ^ 16` and an exponent beyond.
-/
def render (x : Binary64) : List Char :=
  let sign := if x.negative then ['-'] else []
  if x.significand = 0 then sign ++ ['0', '.', '0']
  else
    let (number, exponent) := x.shortest
    let digits := Nat.toDigits 10 number
    let point := digits.length + exponent
    let zeros (n : Int) : List Char := List.replicate n.toNat '0'
    sign ++
      if 0 ≤ exponent && point ≤ 16 then digits ++ zeros exponent ++ ['.', '0']
      else if 0 < point && point ≤ 16 then
        digits.take point.toNat ++ ['.'] ++ digits.drop point.toNat
      else if -5 < point && point ≤ 0 then ['0', '.'] ++ zeros (-point) ++ digits
      else
        let fraction := if digits.length = 1 then [] else '.' :: digits.drop 1
        let scale := point - 1
        digits.take 1 ++ fraction ++ ['e', if scale < 0 then '-' else '+'] ++
          Nat.toDigits 10 scale.natAbs

end Binary64

end CrossDoc
