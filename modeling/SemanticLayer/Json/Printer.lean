import SemanticLayer.Json.Value

/-!
# SemanticLayer.Json.Printer

The compact text of a JSON document: no white space, and only the characters escaped that must be.
-/

namespace SemanticLayer
namespace Json

def hexDigit (n : Nat) : Char :=
  if n < 10 then Char.ofNat ('0'.toNat + n) else Char.ofNat ('a'.toNat + (n - 10))

/-- Quotes, backslashes and control characters are escaped, all else is written as it is. -/
def escapeChar (c : Char) : List Char :=
  if c = '"' then ['\\', '"']
  else if c = '\\' then ['\\', '\\']
  else if c = '\x08' then ['\\', 'b']
  else if c = '\t' then ['\\', 't']
  else if c = '\n' then ['\\', 'n']
  else if c = '\x0c' then ['\\', 'f']
  else if c = '\r' then ['\\', 'r']
  else if c.toNat < 0x20 then
    ['\\', 'u', '0', '0', hexDigit (c.toNat / 16), hexDigit (c.toNat % 16)]
  else [c]

def escape : List Char → List Char
  | [] => []
  | c :: rest => escapeChar c ++ escape rest

def printString (s : Option String) : List Char :=
  '"' :: escape (s.getD "").toList ++ ['"']

def printDecimal (d : Decimal) : List Char :=
  (if d.negative then ['-'] else [])
    ++ d.whole
    ++ (if d.fraction.isEmpty then [] else '.' :: d.fraction)
    ++ (match d.exponent with
        | none => []
        | some (negative, digits) => 'e' :: (if negative then '-' :: digits else digits))

mutual
def print : Json → List Char
  | null => ['n', 'u', 'l', 'l']
  | bool true => ['t', 'r', 'u', 'e']
  | bool false => ['f', 'a', 'l', 's', 'e']
  | nat n => Nat.toDigits 10 n
  | decimal d => printDecimal d
  | string s => printString s
  | array [] => ['[', ']']
  | array (item :: rest) => '[' :: print item ++ printItems rest
  | object [] => ['\x7b', '\x7d']
  | object ((key, value) :: rest) =>
    '\x7b' :: printString key ++ ':' :: print value ++ printFields rest

/-- The items after the first one, and the closing bracket. -/
def printItems : List Json → List Char
  | [] => [']']
  | item :: rest => ',' :: print item ++ printItems rest

/-- The fields after the first one, and the closing brace. -/
def printFields : List (Option String × Json) → List Char
  | [] => ['\x7d']
  | (key, value) :: rest => ',' :: printString key ++ ':' :: print value ++ printFields rest
end

def render (j : Json) : String := String.ofList (print j)

end Json
end SemanticLayer
