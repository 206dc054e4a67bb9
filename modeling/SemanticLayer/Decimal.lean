/-!
# SemanticLayer.Decimal

Decimal numbers as they are written, and whether they are finite as 64-bit floats. There are two
ways to tell: `isFinite` rounds the number itself, and `hasFiniteProduct` rounds its leading digits
and a power of ten apart and then multiplies them.
-/

namespace SemanticLayer

/-- A number with a sign, a fraction or an exponent. -/
structure Decimal where
  negative : Bool
  whole : List Char
  /-- The digits after the point, none without a point. -/
  fraction : List Char
  /-- The sign and the digits of the exponent. -/
  exponent : Option (Bool × List Char)
deriving DecidableEq, Repr

/-- The number with one more decimal digit. -/
def pushDigit (n : Nat) (c : Char) : Nat := n * 10 + (c.toNat - '0'.toNat)

/-- The value of a run of decimal digits. -/
def digitsToNat (digits : List Char) : Nat := digits.foldl pushDigit 0

/-- The least number that a 64-bit float rounds to infinity. -/
def floatOverflow : Nat := Nat.pow 2 1024 - Nat.pow 2 970

/-- The quotient rounded to the nearest number, a half to the even one. -/
def divideToEven (n d : Nat) : Nat :=
  if 2 * (n % d) < d ∨ (2 * (n % d) = d ∧ n / d % 2 = 0) then n / d else n / d + 1

/-- The number rounded to 53 binary digits. -/
def roundToFloat (n : Nat) : Nat :=
  let unit := Nat.pow 2 (n.log2 + 1 - 53)
  divideToEven n unit * unit

namespace Decimal

def exponentValue (d : Decimal) : Int :=
  match d.exponent with
  | none => 0
  | some (true, digits) => -(digitsToNat digits : Int)
  | some (false, digits) => digitsToNat digits

/-- The number itself is finite once it is rounded. A number with more than 310 places before the
point is not spelled out to tell. -/
def isFinite (d : Decimal) : Bool :=
  let mantissa := digitsToNat (d.whole ++ d.fraction)
  let places := (Nat.toDigits 10 mantissa).length
  let scale := d.exponentValue - d.fraction.length
  if mantissa = 0 then true
  else if (places : Int) + scale > 310 then false
  else if (places : Int) + scale < 300 then true
  else if scale ≥ 0 then mantissa * Nat.pow 10 scale.toNat < floatOverflow
  else mantissa < floatOverflow * Nat.pow 10 (-scale).toNat

/-- Add digits to a number as long as it stays below `2 ^ 64`. Answers with the number and the
digits from the first one that did not fit. -/
def takeDigits : Nat → List Char → Nat × List Char
  | n, [] => (n, [])
  | n, c :: rest =>
    if pushDigit n c < Nat.pow 2 64 then takeDigits (pushDigit n c) rest else (n, c :: rest)

/-- The leading digits of the number, as many as fit in 64 bits, and the power of ten that goes with
them. Digits before the point that do not fit count as places, those after it are dropped. -/
def scaled (d : Decimal) : Nat × Int :=
  let whole := takeDigits 0 d.whole
  let all := takeDigits whole.1 d.fraction
  (all.1, d.exponentValue + whole.2.length - (d.fraction.length - all.2.length : Nat))

/-- The leading digits and the power of ten have a finite product, when each of the two is rounded
first. A power of ten beyond the greatest float is too much for any number but zero. -/
def hasFiniteProduct (d : Decimal) : Bool :=
  let (digits, scale) := d.scaled
  if digits = 0 ∨ scale < 0 then true
  else if scale > 308 then false
  else roundToFloat digits * roundToFloat (Nat.pow 10 scale.toNat) < floatOverflow

end Decimal
end SemanticLayer
