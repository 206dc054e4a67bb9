import SemanticLayer.Json.Value

/-!
# SemanticLayer.Json.Decoder

Decoding values from JSON documents. A decoder is told how many arrays and objects may still be
opened on the way down, so that documents which nest too deep are refused.

Records are written as objects, or as arrays of their fields in order. Unknown keys of an object are
skipped; a known key stands at most once.
-/

namespace SemanticLayer

abbrev Decoder (α : Type) := Nat → Json → Option α

namespace Decoder

/-- How deep a document may nest. -/
def maxDepth : Nat := 127

def string : Decoder String
  | _, .string s => s
  | _, _ => none

def bool : Decoder Bool
  | _, .bool b => some b
  | _, _ => none

def uint64 : Decoder UInt64
  | _, .nat n => if n < UInt64.size then some (UInt64.ofNat n) else none
  | _, _ => none

def list {α : Type} (item : Decoder α) : Decoder (List α)
  | depth + 1, .array items => items.mapM (item depth)
  | _, _ => none

/-- The fields of an object, in order and with repeated keys. -/
def entries {α : Type} (value : Decoder α) : Decoder (List (String × α))
  | depth + 1, .object fields => fields.mapM fun f =>
    match f.1, value depth f.2 with
    | some key, some v => some (key, v)
    | _, _ => none
  | _, _ => none

/-- One of several words. A word may also stand as the only key of an object, over `null`. -/
def oneOf {α : Type} (words : List (String × α)) : Decoder α
  | _, .string (some s) => words.lookup s
  | _ + 1, .object [(some s, .null)] => words.lookup s
  | _, _ => none

/-! ## Records -/

/-- The value of the field `name`, if it is there. A field that stands twice is an error. -/
def single (fields : List (Option String × Json)) (name : String) : Option (Option Json) :=
  match fields.filter (·.1 = some name) with
  | [] => some none
  | [f] => some (some f.2)
  | _ => none

/-- Items for the given names, in order. Items may run out before the names do. -/
def fill : List String → List Json → Option (List (Option Json))
  | [], [] => some []
  | [], _ :: _ => none
  | _ :: names, [] => (fill names []).map (none :: ·)
  | _ :: names, item :: items => (fill names items).map (some item :: ·)

/-- What an object holds under the given names. -/
def named (names : List String) (fields : List (Option String × Json)) :
    Option (List (Option Json)) :=
  if fields.all (·.1.isSome) then names.mapM (single fields) else none

/-- What a record holds under the given names. -/
def slots (names : List String) : Json → Option (List (Option Json))
  | .object fields => named names fields
  | .array items => fill names items
  | _ => none

def record {α : Type} (names : List String)
    (build : Nat → List (Option Json) → Option α) : Decoder α
  | depth + 1, j =>
    match slots names j with
    | some slots => build depth slots
    | none => none
  | 0, _ => none

/-- A field that must be there. -/
def required {α : Type} (d : Decoder α) (depth : Nat) : Option Json → Option α
  | some j => d depth j
  | none => none

/-- A field that may be left out or `null`. -/
def optional {α : Type} (d : Decoder α) (depth : Nat) : Option Json → Option (Option α)
  | none => some none
  | some .null => some none
  | some j => (d depth j).map some

/-- A field that may be left out. -/
def withDefault {α : Type} (d : Decoder α) (default : α) (depth : Nat) :
    Option Json → Option α
  | none => some default
  | some j => d depth j

/-- Decode a whole document. -/
def run {α : Type} (d : Decoder α) (j : Json) : Option α := d maxDepth j

end Decoder
end SemanticLayer
