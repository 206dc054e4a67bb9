import SemanticLayer.Toml.Text

/-!
# SemanticLayer.Toml.Reader

Reading a TOML document.
-/

namespace SemanticLayer
namespace Toml

/-- How deep arrays and inline tables may nest. -/
def maxDepth : Nat := 80

/-- A key of an inline table up to its value. Line ends and comments may stand around the equals
sign. -/
def readAssignment (cs : List Char) : Option ((List String × String) × List Char) :=
  match readKey cs with
  | none => none
  | some (key, rest) =>
    match skipSpace rest with
    | some ('=' :: rest) => (skipSpace rest).map fun rest => (key, rest)
    | _ => none

mutual
/-- A value at the head of the text. `depth` counts the arrays and inline tables that may still be
opened; every other step takes a character, so `fuel` runs out only when it is less than the length
of the text. -/
def readValue : Nat → Nat → List Char → Option (Toml × List Char)
  | 0, _, _ => none
  | fuel + 1, depth, cs =>
    match cs with
    | '"' :: _ => (readString cs).map fun r => (.string r.1, r.2)
    | '\'' :: _ => (readString cs).map fun r => (.string r.1, r.2)
    | '[' :: rest =>
      match depth with
      | 0 => none
      | depth + 1 => (readItems fuel depth rest).map fun r => (.array r.1, r.2)
    | '\x7b' :: rest =>
      match depth with
      | 0 => none
      | depth + 1 => (readEntries fuel depth [] rest).map fun r => (.inline r.1, r.2)
    | cs => readBare cs

/-- The items of an array up to its closing bracket. A comma may follow the last one. -/
def readItems : Nat → Nat → List Char → Option (List Toml × List Char)
  | 0, _, _ => none
  | fuel + 1, depth, cs =>
    match skipSpace cs with
    | none => none
    | some (']' :: rest) => some ([], rest)
    | some cs =>
      match readValue fuel depth cs with
      | none => none
      | some (item, rest) =>
        match skipSpace rest with
        | some (',' :: rest) => (readItems fuel depth rest).map fun r => (item :: r.1, r.2)
        | some (']' :: rest) => some ([item], rest)
        | _ => none

/-- The entries of an inline table up to its closing brace, after the entries read so far. A comma
may follow the last one. -/
def readEntries : Nat → Nat → Entries → List Char → Option (Entries × List Char)
  | 0, _, _, _ => none
  | fuel + 1, depth, entries, cs =>
    match skipSpace cs with
    | none => none
    | some ('\x7d' :: rest) => some (entries, rest)
    | some cs =>
      match readAssignment cs with
      | none => none
      | some ((path, key), rest) =>
        match readValue fuel depth rest with
        | none => none
        | some (value, rest) =>
          match putDotted key value path entries with
          | none => none
          | some entries =>
            match skipSpace rest with
            | some (',' :: rest) => readEntries fuel depth entries rest
            | some ('\x7d' :: rest) => some (entries, rest)
            | _ => none
end

/-- A line with a key and its value, which goes into the table `current`. -/
def readKeyValue (current : List String) (root : Entries) (cs : List Char) :
    Option (Entries × List Char) :=
  match readKey cs with
  | some ((path, key), '=' :: rest) =>
    match readValue (rest.length + 1) maxDepth (skipBlanks rest) with
    | none => none
    | some (value, rest) =>
      match afterLine rest, descend (putDotted key value path) current root with
      | some rest, some root => some (root, rest)
      | _, _ => none
  | _ => none

/-- A header after its opening brackets: the path of the table and the text after the line. -/
def readHeader (isElement : Bool) (root : Entries) (cs : List Char) :
    Option (Entries × List String × List Char) :=
  match readKey cs with
  | none => none
  | some ((path, key), rest) =>
    let closed := if isElement then [']', ']'] else [']']
    if closed.isPrefixOf rest then
      match afterLine (rest.drop closed.length),
          descend (if isElement then openElement key else openTable key) path root with
      | some rest, some root => some (root, path ++ [key], rest)
      | _, _ => none
    else none

/-- The lines of a document. `current` is the table of the last header. -/
def readLines : Nat → List String → Entries → List Char → Option Entries
  | 0, _, _, _ => none
  | fuel + 1, current, root, cs =>
    match skipSpace cs with
    | none => none
    | some [] => some root
    | some ('[' :: '[' :: rest) =>
      match readHeader true root rest with
      | none => none
      | some (root, current, rest) => readLines fuel current root rest
    | some ('[' :: rest) =>
      match readHeader false root rest with
      | none => none
      | some (root, current, rest) => readLines fuel current root rest
    | some cs =>
      match readKeyValue current root cs with
      | none => none
      | some (root, rest) => readLines fuel current root rest

/-- Drop a byte order mark. -/
def dropMark : List Char → List Char
  | '\uFEFF' :: rest => rest
  | cs => cs

/-- The entries of a whole document. -/
def parse (s : String) : Option Entries :=
  let cs := dropMark s.toList
  readLines (cs.length + 1) [] [] cs

end Toml
end SemanticLayer
