import SemanticLayer.Decimal

/-!
# SemanticLayer.Json.Value

JSON documents as they are written: the fields of an object keep their order and repeated keys stay.
-/

namespace SemanticLayer

/-- A JSON document. A number with a sign, a fraction or an exponent is a `decimal`, any other one a
`nat`. The content of a string or of a key is `none` when one of its escapes is half
of a surrogate pair, so that it spells no text. -/
inductive Json where
  | null
  | bool (b : Bool)
  | nat (n : Nat)
  | decimal (d : Decimal)
  | string (s : Option String)
  | array (items : List Json)
  | object (fields : List (Option String × Json))
deriving Repr

namespace Json

/-- A text as a document. -/
def text (s : String) : Json := .string (some s)

/-- An object with spelled keys. -/
def record (fields : List (String × Json)) : Json :=
  .object (fields.map fun f => (some f.1, f.2))

mutual
/-- How deep arrays and objects nest in the document. -/
def depth : Json → Nat
  | array items => depthItems items + 1
  | object fields => depthFields fields + 1
  | _ => 0

def depthItems : List Json → Nat
  | [] => 0
  | item :: rest => max (depth item) (depthItems rest)

def depthFields : List (Option String × Json) → Nat
  | [] => 0
  | (_, value) :: rest => max (depth value) (depthFields rest)
end

mutual
/-- Every text in the document is spelled, and every number is finite. -/
def isSound : Json → Bool
  | string s => s.isSome
  | nat n => Decimal.hasFiniteProduct ⟨false, Nat.toDigits 10 n, [], none⟩
  | decimal d => d.hasFiniteProduct
  | array items => isSoundItems items
  | object fields => isSoundFields fields
  | _ => true

def isSoundItems : List Json → Bool
  | [] => true
  | item :: rest => isSound item && isSoundItems rest

def isSoundFields : List (Option String × Json) → Bool
  | [] => true
  | (key, value) :: rest => key.isSome && isSound value && isSoundFields rest
end

end Json
end SemanticLayer
