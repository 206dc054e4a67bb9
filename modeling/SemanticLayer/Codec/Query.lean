import SemanticLayer.Query
import SemanticLayer.Codec.Schema

/-!
# SemanticLayer.Codec.Query

The JSON form of queries. Path nodes and filters carry no tag: their forms are tried in turn, on a
document that is sound as a whole, and the first form that decodes is taken.
-/

namespace SemanticLayer

open Decoder (required optional withDefault)

/-- A document that is sound and nests at most `depth` deep. -/
def Json.fits (depth : Nat) (j : Json) : Bool := j.isSound && j.depth ≤ depth

namespace Hop

def decode : Decoder Hop :=
  Decoder.record ["left", "right", "on"] fun depth slots =>
    match slots with
    | [left, right, on] => do
      let left ← required Decoder.string depth left
      let right ← required Decoder.string depth right
      let on ← required Decoder.string depth on
      some { left, right, on }
    | _ => none

end Hop

namespace PathNode

def decodeSingle : Decoder PathNode :=
  Decoder.record ["left"] fun depth slots =>
    match slots with
    | [left] => (required Decoder.string depth left).map .single
    | _ => none

def decode : Decoder PathNode := fun depth j =>
  if j.fits depth then
    match Hop.decode depth j with
    | some hop => some (.join hop)
    | none => decodeSingle depth j
  else none

def encode : PathNode → Json
  | join hop => .record [("left", .text hop.left), ("right", .text hop.right), ("on", .text hop.on)]
  | single table => .record [("left", .text table)]

end PathNode

namespace JoinPath

def decode : Decoder JoinPath := Decoder.list PathNode.decode

def encode (path : JoinPath) : Json := .array (path.map (·.encode))

end JoinPath

namespace Operator

def word : Operator → String
  | equals => "equals"
  | notEquals => "notEquals"
  | contains => "contains"
  | notContains => "notContains"
  | isIn => "in"
  | notIn => "notIn"
  | gt => "gt"
  | gte => "gte"
  | lt => "lt"
  | lte => "lte"
  | isSet => "set"
  | notSet => "notSet"
  | inDateRange => "inDateRange"
  | notInDateRange => "notInDateRange"

def words : List (String × Operator) :=
  [equals, notEquals, contains, notContains, isIn, notIn, gt, gte, lt, lte, isSet, notSet,
    inDateRange, notInDateRange].map fun o => (o.word, o)

def decode : Decoder Operator := Decoder.oneOf words

def encode (o : Operator) : Json := .text o.word

end Operator

namespace Filter

/-- The predicate form of a filter, from the fields of its object. -/
def decodeMember (depth : Nat) (fields : List (Option String × Json)) : Option Filter :=
  match Decoder.named ["member", "operator", "values"] fields with
  | some [m, operator, values] => do
    let m ← required Decoder.string depth m
    let operator ← required Operator.decode depth operator
    let values ← withDefault (Decoder.list Decoder.string) [] depth values
    some (.member m operator values)
  | _ => none

/-- The array under the key `name`, if that key stands once. -/
def groupItems (name : String) (fields : List (Option String × Json)) : Option (List Json) :=
  match Decoder.single fields name with
  | some (some (.array items)) => some items
  | _ => none

/-- A filter, read from a sound document. -/
def decodeSound : Decoder Filter
  | depth + 2, .object fields =>
    match (groupItems "and" fields).bind (·.mapM (decodeSound depth)) with
    | some filters => some (.all filters)
    | none =>
      match (groupItems "or" fields).bind (·.mapM (decodeSound depth)) with
      | some filters => some (.any filters)
      | none => decodeMember (depth + 1) fields
  | 1, .object fields => decodeMember 0 fields
  | _, _ => none

def decode : Decoder Filter := fun depth j =>
  if j.fits depth then decodeSound depth j else none

mutual
def encode : Filter → Json
  | all filters => .record [("and", .array (encodeList filters))]
  | any filters => .record [("or", .array (encodeList filters))]
  | member m operator values =>
    .record [("member", .text m), ("operator", operator.encode),
      ("values", .array (values.map .text))]

def encodeList : List Filter → List Json
  | [] => []
  | f :: rest => encode f :: encodeList rest
end

end Filter

namespace SortDirection

def word : SortDirection → String
  | ascending => "asc"
  | descending => "desc"

def words : List (String × SortDirection) :=
  [ascending, descending].map fun d => (d.word, d)

def decode : Decoder SortDirection := Decoder.oneOf words

def encode (d : SortDirection) : Json := .text d.word

end SortDirection

namespace OrderEntry

/-- An order is an object from members to directions. -/
def decodeList : Decoder (List OrderEntry) := fun depth j =>
  (Decoder.entries SortDirection.decode depth j).map (·.map fun e => ⟨e.1, e.2⟩)

def encodeList (order : List OrderEntry) : Json :=
  .record (order.map fun e => (e.member, e.direction.encode))

end OrderEntry

namespace Query

def decode : Decoder Query :=
  Decoder.record ["measures", "dimensions", "filters", "joinPaths", "order", "limit", "offset"]
    fun depth slots =>
      match slots with
      | [measures, dimensions, filters, joinPaths, order, limit, offset] => do
        let measures ← withDefault (Decoder.list Decoder.string) [] depth measures
        let dimensions ← withDefault (Decoder.list Decoder.string) [] depth dimensions
        let filters ← withDefault (Decoder.list Filter.decode) [] depth filters
        let joinPaths ← withDefault (Decoder.list JoinPath.decode) [] depth joinPaths
        let order ← withDefault OrderEntry.decodeList [] depth order
        let limit ← optional Decoder.uint64 depth limit
        let offset ← optional Decoder.uint64 depth offset
        some { measures, dimensions, filters, joinPaths, order, limit, offset }
      | _ => none

def encode (q : Query) : Json :=
  .record ([("measures", .array (q.measures.map .text)),
      ("dimensions", .array (q.dimensions.map .text)),
      ("filters", .array (Filter.encodeList q.filters)),
      ("joinPaths", .array (q.joinPaths.map JoinPath.encode))]
    ++ Json.field? "order" (if q.order.isEmpty then none else some (OrderEntry.encodeList q.order))
    ++ Json.field? "limit" (q.limit.map fun n => .nat n.toNat)
    ++ Json.field? "offset" (q.offset.map fun n => .nat n.toNat))

end Query

namespace Dictionary

def decode : Decoder Dictionary := fun depth j =>
  (Decoder.entries Decoder.string depth j).map ofList

def encode (d : Dictionary) : Json := .record (d.entries.map fun e => (e.1, .text e.2))

end Dictionary

end SemanticLayer
