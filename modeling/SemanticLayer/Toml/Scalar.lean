import SemanticLayer.Decimal
import SemanticLayer.Text.Numeral
import SemanticLayer.Toml.Value

/-!
# SemanticLayer.Toml.Scalar

The bare values of TOML: booleans, numbers and dates.
-/

namespace SemanticLayer
namespace Toml

/-! ## Numbers -/

/-- Digits, with single underscores between them. -/
def isDigitRun (p : Char → Bool) : List Char → Bool
  | [] => false
  | [c] => p c
  | c :: '_' :: d :: rest => p c && isDigitRun p (d :: rest)
  | c :: rest => p c && isDigitRun p rest

def hasLeadingZero : List Char → Bool
  | '0' :: _ :: _ => true
  | _ => false

def isWhole (cs : List Char) : Bool := isDigitRun Char.isDigit cs && !hasLeadingZero cs

def isHexDigit (c : Char) : Bool :=
  c.isDigit || ('a' ≤ c && c ≤ 'f') || ('A' ≤ c && c ≤ 'F')

def hexDigitValue (c : Char) : Nat :=
  if c.isDigit then c.toNat - '0'.toNat
  else if 'a' ≤ c then c.toNat - 'a'.toNat + 10
  else c.toNat - 'A'.toNat + 10

/-- The value of digits in the given base, underscores left out. -/
def valueIn (base : Nat) (cs : List Char) : Nat :=
  (cs.filter (· ≠ '_')).foldl (fun n c => n * base + hexDigitValue c) 0

/-- An integer. It has at most 128 bits. -/
def isInteger (cs : List Char) : Bool :=
  match cs with
  | '0' :: 'x' :: digits => isDigitRun isHexDigit digits && valueIn 16 digits < Nat.pow 2 128
  | '0' :: 'o' :: digits =>
    isDigitRun (fun c => '0' ≤ c && c ≤ '7') digits && valueIn 8 digits < Nat.pow 2 128
  | '0' :: 'b' :: digits =>
    isDigitRun (fun c => c = '0' || c = '1') digits && valueIn 2 digits < Nat.pow 2 128
  | '-' :: digits => isWhole digits && valueIn 10 digits ≤ Nat.pow 2 127
  | '+' :: digits => isWhole digits && valueIn 10 digits < Nat.pow 2 128
  | digits => isWhole digits && valueIn 10 digits < Nat.pow 2 128

def isDigitOrUnderscore (c : Char) : Bool := c.isDigit || c = '_'

/-- The digits of an exponent, after its letter. -/
def readExponentPart : List Char → Option (Bool × List Char)
  | c :: rest =>
    if (c = 'e' || c = 'E') && isDigitRun Char.isDigit (Text.dropSign rest) then
      some (rest.head? = some '-', (Text.dropSign rest).filter (· ≠ '_'))
    else none
  | [] => none

/-- A number with a fraction or an exponent, after its sign. -/
def readFloat (cs : List Char) : Option Decimal :=
  let whole := cs.takeWhile isDigitOrUnderscore
  if !isWhole whole then none
  else
    let digits := whole.filter (· ≠ '_')
    match cs.dropWhile isDigitOrUnderscore with
    | '.' :: rest =>
      let fraction := rest.takeWhile isDigitOrUnderscore
      if !isDigitRun Char.isDigit fraction then none
      else
        match rest.dropWhile isDigitOrUnderscore with
        | [] => some ⟨false, digits, fraction.filter (· ≠ '_'), none⟩
        | rest => (readExponentPart rest).map fun e =>
            ⟨false, digits, fraction.filter (· ≠ '_'), some e⟩
    | rest => (readExponentPart rest).map fun e => ⟨false, digits, [], some e⟩

/-- A float. It is finite, or the word for infinity or for no number. -/
def isFloat (cs : List Char) : Bool :=
  let body := Text.dropSign cs
  body == ['i', 'n', 'f'] || body == ['n', 'a', 'n'] || (readFloat body).any Decimal.isFinite

/-! ## Dates and times -/

/-- The next `n` digits and what follows them. -/
def readDigits (n : Nat) (cs : List Char) : Option (Nat × List Char) :=
  let digits := cs.take n
  if digits.length = n ∧ digits.all Char.isDigit then some (digitsToNat digits, cs.drop n) else none

def isLeapYear (y : Nat) : Bool := y % 4 = 0 && (y % 100 ≠ 0 || y % 400 = 0)

def daysIn (year month : Nat) : Nat :=
  if month = 2 then (if isLeapYear year then 29 else 28)
  else if month = 4 ∨ month = 6 ∨ month = 9 ∨ month = 11 then 30
  else 31

/-- The text after a date at the head of the text. -/
def afterDate (cs : List Char) : Option (List Char) :=
  match readDigits 4 cs with
  | some (year, '-' :: cs) =>
    match readDigits 2 cs with
    | some (month, '-' :: cs) =>
      match readDigits 2 cs with
      | some (day, cs) =>
        if 1 ≤ month ∧ month ≤ 12 ∧ 1 ≤ day ∧ day ≤ daysIn year month then some cs else none
      | none => none
    | _ => none
  | _ => none

/-- The text after the seconds and their fraction, which both may be left out. -/
def afterSeconds : List Char → Option (List Char)
  | ':' :: cs =>
    match readDigits 2 cs with
    | none => none
    | some (second, cs) =>
      if second > 60 then none
      else
        match cs with
        | '.' :: rest =>
          if (rest.takeWhile Char.isDigit).isEmpty then none else some (rest.dropWhile Char.isDigit)
        | cs => some cs
  | cs => some cs

/-- The text after a time of day at the head of the text. -/
def afterTime (cs : List Char) : Option (List Char) :=
  match readDigits 2 cs with
  | some (hour, ':' :: cs) =>
    match readDigits 2 cs with
    | some (minute, cs) => if hour < 24 ∧ minute < 60 then afterSeconds cs else none
    | none => none
  | _ => none

/-- Nothing, `Z`, or the hours and minutes of a time of day with a sign. -/
def isOffset : List Char → Bool
  | [] => true
  | [c] => c = 'Z' || c = 'z'
  | sign :: cs =>
    (sign = '+' || sign = '-') &&
      match readDigits 2 cs with
      | some (hours, ':' :: cs) =>
        match readDigits 2 cs with
        | some (minutes, []) => hours < 24 && minutes < 60
        | _ => false
      | _ => false

/-- A time of day, a date, or both with a letter or a blank between them. -/
def isDate (cs : List Char) : Bool :=
  match afterDate cs with
  | some [] => true
  | some (c :: cs) => (c = 'T' || c = 't' || c = ' ') && (afterTime cs).any isOffset
  | none => afterTime cs == some []

def readScalar (cs : List Char) : Option Toml :=
  if cs = ['t', 'r', 'u', 'e'] then some (.boolean true)
  else if cs = ['f', 'a', 'l', 's', 'e'] then some (.boolean false)
  else if isInteger cs || isFloat cs then some .number
  else if isDate cs then some .date
  else none

/-- The characters that end a bare value. -/
def isDelimiter (c : Char) : Bool :=
  [' ', '\t', '\r', '\n', ',', '[', ']', '\x7b', '\x7d', '#', '=', '"', '\''].contains c

/-- A bare value and what follows it. A date and a time may stand with a blank between them. -/
def readBare (cs : List Char) : Option (Toml × List Char) :=
  let word := cs.takeWhile (!isDelimiter ·)
  let rest := cs.dropWhile (!isDelimiter ·)
  match rest with
  | ' ' :: c :: more =>
    if afterDate word = some [] ∧ c.isDigit then
      let time := (c :: more).takeWhile (!isDelimiter ·)
      (readScalar (word ++ ' ' :: time)).map fun v => (v, (c :: more).dropWhile (!isDelimiter ·))
    else (readScalar word).map fun v => (v, rest)
  | _ => (readScalar word).map fun v => (v, rest)

end Toml
end SemanticLayer
