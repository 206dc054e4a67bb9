import SemanticLayer.Toml.Scalar

/-!
# SemanticLayer.Toml.Text

Strings, keys and white space of TOML.
-/

namespace SemanticLayer
namespace Toml

/-! ## White space -/

def skipBlanks (cs : List Char) : List Char := cs.dropWhile fun c => c = ' ' || c = '\t'

/-- Characters that stand in no comment and in no string on one line. -/
def isControl (c : Char) : Bool := (c.toNat < 0x20 && c ≠ '\t') || c.toNat = 0x7F

/-- The text after a line end, or the empty text at the end of the document. -/
def afterNewline : List Char → Option (List Char)
  | [] => some []
  | '\n' :: rest => some rest
  | '\r' :: '\n' :: rest => some rest
  | _ => none

/-- The line end that a comment runs to, after its hash. -/
def commentEnd (cs : List Char) : List Char := cs.dropWhile fun c => !isControl c

/-- The text after the rest of a line, which holds nothing but blanks and a comment. -/
def afterLine (cs : List Char) : Option (List Char) :=
  match skipBlanks cs with
  | '#' :: rest => afterNewline (commentEnd rest)
  | rest => afterNewline rest

/-- Skip blanks, line ends and comments. `none` at a stray control character. -/
def skipLines : Nat → List Char → Option (List Char)
  | 0, _ => none
  | fuel + 1, cs =>
    match skipBlanks cs with
    | '\n' :: rest => skipLines fuel rest
    | '\r' :: '\n' :: rest => skipLines fuel rest
    | '#' :: rest =>
      match commentEnd rest with
      | [] => some []
      | '\n' :: rest => skipLines fuel rest
      | '\r' :: '\n' :: rest => skipLines fuel rest
      | _ => none
    | rest => some rest

def skipSpace (cs : List Char) : Option (List Char) := skipLines (cs.length + 1) cs

/-! ## Strings -/

/-- The character of an escape that names it by `n` hexadecimal digits. -/
def readCodePoint (n : Nat) (cs : List Char) : Option (Char × List Char) :=
  let digits := cs.take n
  if digits.length = n ∧ digits.all isHexDigit then
    let code := valueIn 16 digits
    if code < 0xD800 ∨ (0xE000 ≤ code ∧ code < 0x110000) then some (Char.ofNat code, cs.drop n)
    else none
  else none

/-- The character of an escape, after its backslash. -/
def readEscape : List Char → Option (Char × List Char)
  | 'b' :: rest => some ('\x08', rest)
  | 't' :: rest => some ('\t', rest)
  | 'n' :: rest => some ('\n', rest)
  | 'f' :: rest => some ('\x0c', rest)
  | 'r' :: rest => some ('\r', rest)
  | 'e' :: rest => some ('\x1b', rest)
  | '"' :: rest => some ('"', rest)
  | '\\' :: rest => some ('\\', rest)
  | 'x' :: rest => readCodePoint 2 rest
  | 'u' :: rest => readCodePoint 4 rest
  | 'U' :: rest => readCodePoint 8 rest
  | _ => none

/-- A string in double quotes on one line, after its opening quote. -/
def readBasic : Nat → List Char → Option (List Char × List Char)
  | 0, _ => none
  | _ + 1, [] => none
  | _ + 1, '"' :: rest => some ([], rest)
  | fuel + 1, '\\' :: rest =>
    match readEscape rest with
    | none => none
    | some (c, rest) => (readBasic fuel rest).map fun r => (c :: r.1, r.2)
  | fuel + 1, c :: rest =>
    if isControl c then none else (readBasic fuel rest).map fun r => (c :: r.1, r.2)

/-- A string in single quotes on one line, after its opening quote. -/
def readLiteral : List Char → Option (List Char × List Char)
  | [] => none
  | '\'' :: rest => some ([], rest)
  | c :: rest => if isControl c then none else (readLiteral rest).map fun r => (c :: r.1, r.2)

/-- The quotes at the end of a string over several lines: three close it, and up to two before them
belong to it. Answers with the quotes that belong to it. -/
def closingQuotes (q : Char) (cs : List Char) : Option (List Char × List Char) :=
  let run := (cs.takeWhile (· = q)).length
  if run < 3 then none
  else
    let own := min (run - 3) 2
    some (List.replicate own q, cs.drop (own + 3))

/-- Skip blanks and line ends. -/
def skipLayout : List Char → List Char
  | ' ' :: rest => skipLayout rest
  | '\t' :: rest => skipLayout rest
  | '\n' :: rest => skipLayout rest
  | '\r' :: '\n' :: rest => skipLayout rest
  | cs => cs

/-- The text after a backslash at the end of a line: blanks and line ends are skipped. -/
def afterContinuation (cs : List Char) : Option (List Char) :=
  match afterNewline (skipBlanks cs) with
  | some rest => if (skipBlanks cs).isEmpty then none else some (skipLayout rest)
  | none => none

/-- A string in three double quotes, after its opening quotes and a line end right after them. -/
def readLongBasic : Nat → List Char → Option (List Char × List Char)
  | 0, _ => none
  | _ + 1, [] => none
  | fuel + 1, '\\' :: rest =>
    match afterContinuation rest with
    | some rest => readLongBasic fuel rest
    | none =>
      match readEscape rest with
      | none => none
      | some (c, rest) => (readLongBasic fuel rest).map fun r => (c :: r.1, r.2)
  | fuel + 1, '\r' :: '\n' :: rest =>
    (readLongBasic fuel rest).map fun r => ('\r' :: '\n' :: r.1, r.2)
  | fuel + 1, c :: rest =>
    if c = '"' then
      match closingQuotes '"' (c :: rest) with
      | some closed => some closed
      | none => (readLongBasic fuel rest).map fun r => (c :: r.1, r.2)
    else if isControl c && c ≠ '\n' then none
    else (readLongBasic fuel rest).map fun r => (c :: r.1, r.2)

/-- A string in three single quotes, after its opening quotes and a line end right after them. -/
def readLongLiteral : Nat → List Char → Option (List Char × List Char)
  | 0, _ => none
  | _ + 1, [] => none
  | fuel + 1, '\r' :: '\n' :: rest =>
    (readLongLiteral fuel rest).map fun r => ('\r' :: '\n' :: r.1, r.2)
  | fuel + 1, c :: rest =>
    if c = '\'' then
      match closingQuotes '\'' (c :: rest) with
      | some closed => some closed
      | none => (readLongLiteral fuel rest).map fun r => (c :: r.1, r.2)
    else if isControl c && c ≠ '\n' then none
    else (readLongLiteral fuel rest).map fun r => (c :: r.1, r.2)

/-- Drop a line end right after the opening quotes. -/
def dropFirstNewline : List Char → List Char
  | '\n' :: rest => rest
  | '\r' :: '\n' :: rest => rest
  | cs => cs

/-- A string of any of the four kinds, from its opening quotes on. -/
def readString (cs : List Char) : Option (String × List Char) :=
  let result :=
    match cs with
    | '"' :: '"' :: '"' :: rest => readLongBasic (cs.length + 1) (dropFirstNewline rest)
    | '\'' :: '\'' :: '\'' :: rest => readLongLiteral (cs.length + 1) (dropFirstNewline rest)
    | '"' :: rest => readBasic (cs.length + 1) rest
    | '\'' :: rest => readLiteral rest
    | _ => none
  result.map fun r => (String.ofList r.1, r.2)

/-! ## Keys -/

def isKeyChar (c : Char) : Bool := c.isAlphanum || c = '_' || c = '-'

/-- One part of a key. -/
def readKeyPart (cs : List Char) : Option (String × List Char) :=
  match cs with
  | '"' :: rest => (readBasic (cs.length + 1) rest).map fun r => (String.ofList r.1, r.2)
  | '\'' :: rest => (readLiteral rest).map fun r => (String.ofList r.1, r.2)
  | _ =>
    let part := cs.takeWhile isKeyChar
    if part.isEmpty then none else some (String.ofList part, cs.dropWhile isKeyChar)

/-- A key of at most the given number of parts: its parts before the last one, the last one, and
what follows the key and the blanks after it. -/
def readKeyParts : Nat → List Char → Option ((List String × String) × List Char)
  | 0, _ => none
  | limit + 1, cs =>
    match readKeyPart (skipBlanks cs) with
    | none => none
    | some (part, rest) =>
      match skipBlanks rest with
      | '.' :: rest => (readKeyParts limit rest).map fun r => ((part :: r.1.1, r.1.2), r.2)
      | rest => some (([], part), rest)

/-- How many parts a key may have. -/
def maxKeyParts : Nat := 80

def readKey (cs : List Char) : Option ((List String × String) × List Char) :=
  readKeyParts maxKeyParts cs

end Toml
end SemanticLayer
