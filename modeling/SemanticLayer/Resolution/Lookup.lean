import SemanticLayer.Error
import SemanticLayer.Resolution.Config

/-!
# SemanticLayer.Resolution.Lookup

The schemas that resolution joins: one for the base query, and one for each resolved column.
-/

namespace SemanticLayer
namespace Resolution

/-! ## The base query -/

/-- A member of the base query, read from the column the query projects it under. -/
def baseDimension (style : KeyStyle) (schemas : List TableSchema) (member : String) :
    Except CompileError Dimension :=
  match findField schemas member with
  | none => .error (.unknownMember member)
  | some field =>
    let column := style.columnName member field.alias
    .ok {
      name := Member.safeKey member
      sql := columnOf baseName column
      type := field.type
      «alias» := some column }

/-- The join of the base query with the lookup table of a resolved column. -/
def baseJoin (style : KeyStyle) (schemas : List TableSchema) (config : ColumnConfig) :
    JoinDeclaration :=
  let given := (findField schemas config.name).bind (·.alias)
  { sql := columnOf baseName (style.columnName config.name given) ++ " = " ++ config.safeName
      ++ "." ++ config.joinColumn }

/-- The base query as a table with the given members. -/
def baseSchema (style : KeyStyle) (baseSql : String) (schemas : List TableSchema)
    (configs : List ColumnConfig) (members : List String) : Except CompileError TableSchema := do
  let dimensions ← members.mapM (baseDimension style schemas)
  .ok {
    name := baseName
    sql := baseSql
    dimensions
    joins := configs.map (baseJoin style schemas) }

/-! ## The lookup tables -/

def lookupDimension (source : TableSchema) (config : ColumnConfig) (column : String) :
    Except CompileError Dimension :=
  match source.dimension? column with
  | none => .error (.missingDimension column)
  | some d =>
    let name := config.resolvedName column
    .ok { name, sql := config.safeName ++ "." ++ column, type := d.type, «alias» := some name }

/-- The lookup table of a resolved column, under the safe name of that column. -/
def lookupSchema (config : ResolutionConfig) (column : ColumnConfig) :
    Except CompileError TableSchema := do
  match config.sourceSchema? column.source with
  | none => .error (.missingSourceSchema column.source)
  | some source =>
    let dimensions ← column.resolutionColumns.mapM (lookupDimension source column)
    .ok { name := column.safeName, sql := source.sql, dimensions }

def lookupSchemas (config : ResolutionConfig) : Except CompileError (List TableSchema) :=
  config.columnConfigs.mapM (lookupSchema config)

/-! ## Joining them -/

/-- The hop from the base query to the lookup table of a resolved column. -/
def lookupHop (base : TableSchema) (config : ColumnConfig) : Hop where
  left := base.name
  right := config.safeName
  on := ((base.dimension? config.safeName).bind (·.alias)).getD config.safeName

def lookupPaths (base : TableSchema) (configs : List ColumnConfig) : List JoinPath :=
  configs.map fun c => [.join (lookupHop base c)]

/-- The members that a projection expands to: the lookup columns of a resolved column, any other
column itself. -/
def expandMember (base : String) (config : ResolutionConfig) (projection : String) : List String :=
  match config.columnConfig? projection with
  | some c => c.resolutionColumns.map fun column =>
      Member.qualify c.safeName (c.resolvedName column)
  | none => [Member.qualify base (Member.safeKey projection)]

def expandMembers (base : String) (config : ResolutionConfig) (projections : List String) :
    List String :=
  projections.flatMap (expandMember base config)

/-- A schema over the SQL that a query over all fields of `source` was compiled to. -/
def wrapperSchema (sql : String) (source : TableSchema) : TableSchema :=
  let passthrough (name : String) (type : MemberType) (given : Option String) : Dimension :=
    { name, sql := columnOf source.name (given.getD name), type, «alias» := given }
  { name := source.name
    sql
    dimensions := source.dimensions.map (fun d => passthrough d.name d.type d.alias)
      ++ source.measures.map (fun m => passthrough m.name m.type m.alias)
    joins := source.joins }

end Resolution
end SemanticLayer
