import SemanticLayer.Codec.Query
import SemanticLayer.Resolution.Config

/-!
# SemanticLayer.Codec.Resolution

The JSON form of resolution requests.
-/

namespace SemanticLayer

open Decoder (required optional withDefault)

namespace ColumnConfig

def decode : Decoder ColumnConfig :=
  Decoder.record ["name", "type", "source", "joinColumn", "resolutionColumns", "isArrayType"]
    fun depth slots =>
      match slots with
      | [name, type, source, joinColumn, resolutionColumns, isArrayType] => do
        let name ← required Decoder.string depth name
        let type ← required MemberType.decode depth type
        let source ← required Decoder.string depth source
        let joinColumn ← required Decoder.string depth joinColumn
        let resolutionColumns ← required (Decoder.list Decoder.string) depth resolutionColumns
        let isArrayType ← withDefault Decoder.bool false depth isArrayType
        some { name, type, source, joinColumn, resolutionColumns, isArrayType }
      | _ => none

def encode (c : ColumnConfig) : Json :=
  .record [("name", .text c.name), ("type", c.type.encode), ("source", .text c.source),
    ("joinColumn", .text c.joinColumn),
    ("resolutionColumns", .array (c.resolutionColumns.map .text)),
    ("isArrayType", .bool c.isArrayType)]

end ColumnConfig

namespace SqlOverride

def decode : Decoder SqlOverride :=
  Decoder.record ["fieldName", "overrideSql", "type"] fun depth slots =>
    match slots with
    | [fieldName, overrideSql, type] => do
      let fieldName ← required Decoder.string depth fieldName
      let overrideSql ← required Decoder.string depth overrideSql
      let type ← required MemberType.decode depth type
      some { fieldName, overrideSql, type }
    | _ => none

def encode (o : SqlOverride) : Json :=
  .record [("fieldName", .text o.fieldName), ("overrideSql", .text o.overrideSql),
    ("type", o.type.encode)]

end SqlOverride

namespace ResolutionConfig

def decode : Decoder ResolutionConfig :=
  Decoder.record ["columnConfigs", "tableSchemas", "sqlOverrideConfigs"] fun depth slots =>
    match slots with
    | [columnConfigs, tableSchemas, overrides] => do
      let columnConfigs ← withDefault (Decoder.list ColumnConfig.decode) [] depth columnConfigs
      let tableSchemas ← withDefault (Decoder.list TableSchema.decode) [] depth tableSchemas
      let overrides ← withDefault (Decoder.list SqlOverride.decode) [] depth overrides
      some { columnConfigs, tableSchemas, overrides }
    | _ => none

def encode (c : ResolutionConfig) : Json :=
  .record ([("columnConfigs", .array (c.columnConfigs.map (·.encode))),
      ("tableSchemas", .array (c.tableSchemas.map (·.encode)))]
    ++ Json.field? "sqlOverrideConfigs"
      (if c.overrides.isEmpty then none else some (.array (c.overrides.map (·.encode)))))

end ResolutionConfig

namespace Request

def decode : Decoder Request :=
  Decoder.record ["query", "tableSchemas", "resolutionConfig", "columnProjections", "contextParams"]
    fun depth slots =>
      match slots with
      | [query, tableSchemas, config, columnProjections, context] => do
        let query ← required Query.decode depth query
        let tableSchemas ← required (Decoder.list TableSchema.decode) depth tableSchemas
        let config ← withDefault ResolutionConfig.decode {} depth config
        let columnProjections ← optional (Decoder.list Decoder.string) depth columnProjections
        let context ← optional Dictionary.decode depth context
        some { query, tableSchemas, config, columnProjections, context }
      | _ => none

def encode (r : Request) : Json :=
  .record ([("query", r.query.encode),
      ("tableSchemas", .array (r.tableSchemas.map (·.encode))),
      ("resolutionConfig", r.config.encode)]
    ++ Json.field? "columnProjections" (r.columnProjections.map fun ps => .array (ps.map .text))
    ++ Json.field? "contextParams" (r.context.map (·.encode)))

end Request

end SemanticLayer
