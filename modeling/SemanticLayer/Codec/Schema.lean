import SemanticLayer.Schema
import SemanticLayer.Json.Decoder

/-!
# SemanticLayer.Codec.Schema

The JSON form of table schemas.
-/

namespace SemanticLayer

open Decoder (required optional withDefault)

/-- A field that is left out when there is nothing to write. -/
def Json.field? (name : String) (value : Option Json) : List (String × Json) :=
  match value with
  | some j => [(name, j)]
  | none => []

namespace MemberType

def word : MemberType → String
  | string => "string"
  | stringArray => "string_array"
  | time => "time"
  | number => "number"
  | numberArray => "number_array"
  | boolean => "boolean"

def words : List (String × MemberType) :=
  [string, stringArray, time, number, numberArray, boolean].map fun t => (t.word, t)

def decode : Decoder MemberType := Decoder.oneOf words

def encode (t : MemberType) : Json := .text t.word

end MemberType

namespace Measure

def decode : Decoder Measure :=
  Decoder.record ["name", "sql", "type", "alias"] fun depth slots =>
    match slots with
    | [name, sql, type, given] => do
      let name ← required Decoder.string depth name
      let sql ← required Decoder.string depth sql
      let type ← required MemberType.decode depth type
      let given ← optional Decoder.string depth given
      some { name, sql, type, «alias» := given }
    | _ => none

def encode (m : Measure) : Json :=
  .record ([("name", .text m.name), ("sql", .text m.sql), ("type", m.type.encode)]
    ++ Json.field? "alias" (m.alias.map .text))

end Measure

namespace DimensionModifier

def decode : Decoder DimensionModifier :=
  Decoder.record ["shouldFlattenArray", "shouldUnnestGroupBy"] fun depth slots =>
    match slots with
    | [flatten, unnest] => do
      let flattenArray ← withDefault Decoder.bool false depth flatten
      let unnestGroupBy ← withDefault Decoder.bool false depth unnest
      some { flattenArray, unnestGroupBy }
    | _ => none

def encode (m : DimensionModifier) : Json :=
  .record [
    ("shouldFlattenArray", .bool m.flattenArray),
    ("shouldUnnestGroupBy", .bool m.unnestGroupBy)]

end DimensionModifier

namespace Dimension

def decode : Decoder Dimension :=
  Decoder.record ["name", "sql", "type", "alias", "modifier"] fun depth slots =>
    match slots with
    | [name, sql, type, given, modifier] => do
      let name ← required Decoder.string depth name
      let sql ← required Decoder.string depth sql
      let type ← required MemberType.decode depth type
      let given ← optional Decoder.string depth given
      let modifier ← optional DimensionModifier.decode depth modifier
      some { name, sql, type, «alias» := given, modifier }
    | _ => none

def encode (d : Dimension) : Json :=
  .record ([("name", .text d.name), ("sql", .text d.sql), ("type", d.type.encode)]
    ++ Json.field? "alias" (d.alias.map .text)
    ++ Json.field? "modifier" (d.modifier.map (·.encode)))

end Dimension

namespace JoinDeclaration

def decode : Decoder JoinDeclaration :=
  Decoder.record ["sql"] fun depth slots =>
    match slots with
    | [sql] => (required Decoder.string depth sql).map JoinDeclaration.mk
    | _ => none

def encode (j : JoinDeclaration) : Json := .record [("sql", .text j.sql)]

end JoinDeclaration

namespace TableSchema

def decode : Decoder TableSchema :=
  Decoder.record ["name", "sql", "measures", "dimensions", "joins"] fun depth slots =>
    match slots with
    | [name, sql, measures, dimensions, joins] => do
      let name ← required Decoder.string depth name
      let sql ← required Decoder.string depth sql
      let measures ← withDefault (Decoder.list Measure.decode) [] depth measures
      let dimensions ← withDefault (Decoder.list Dimension.decode) [] depth dimensions
      let joins ← withDefault (Decoder.list JoinDeclaration.decode) [] depth joins
      some { name, sql, measures, dimensions, joins }
    | _ => none

def encode (s : TableSchema) : Json :=
  .record [("name", .text s.name), ("sql", .text s.sql),
    ("measures", .array (s.measures.map (·.encode))),
    ("dimensions", .array (s.dimensions.map (·.encode))),
    ("joins", .array (s.joins.map (·.encode)))]

end TableSchema

end SemanticLayer
