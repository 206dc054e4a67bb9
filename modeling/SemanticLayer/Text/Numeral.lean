/-!
# SemanticLayer.Text.Numeral

The texts that are read as a decimal number: an optional sign, digits with an optional point and at
least one digit, and an optional exponent; or a sign and one of the words `inf`, `infinity`, `nan`.
-/

namespace SemanticLayer
namespace Text

def dropSign : List Char → List Char
  | '+' :: rest => rest
  | '-' :: rest => rest
  | cs => cs

/-- A non-empty run of decimal digits and nothing else. -/
def isDigits (cs : List Char) : Bool := !cs.isEmpty && cs.all Char.isDigit

/-- What may follow the mantissa: nothing, or an exponent with at least one digit. -/
def isExponent : List Char → Bool
  | [] => true
  | c :: rest => (c == 'e' || c == 'E') && isDigits (dropSign rest)

/-- A number without its sign: whole digits, then perhaps a point and more digits, then perhaps an
exponent. Digits are needed on one side of the point. -/
def isUnsignedDecimal (cs : List Char) : Bool :=
  let whole := cs.takeWhile Char.isDigit
  match cs.dropWhile Char.isDigit with
  | '.' :: rest =>
    (!whole.isEmpty || !(rest.takeWhile Char.isDigit).isEmpty)
      && isExponent (rest.dropWhile Char.isDigit)
  | rest => !whole.isEmpty && isExponent rest

def isDecimal (cs : List Char) : Bool := isUnsignedDecimal (dropSign cs)

/-- The words for values that are no finite number, in any case. -/
def isSpecialNumber (cs : List Char) : Bool :=
  let word := (dropSign cs).map Char.toLower
  word == ['i', 'n', 'f'] || word == ['i', 'n', 'f', 'i', 'n', 'i', 't', 'y']
    || word == ['n', 'a', 'n']

/-- The texts that are read as a number. -/
def isNumeral (cs : List Char) : Bool := isDecimal cs || isSpecialNumber cs

end Text
end SemanticLayer
