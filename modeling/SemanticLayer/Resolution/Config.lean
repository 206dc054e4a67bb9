import SemanticLayer.Query
import SemanticLayer.Schema

/-!
# SemanticLayer.Resolution.Config

What it takes to resolve columns: a column of keys is replaced by columns of a lookup table that the
keys are joined to.
-/

namespace SemanticLayer

/-- The name of the table that stands for the query whose columns are resolved. -/
def baseName : String := "__base_query"

/-- The column that numbers the rows of that query. -/
def rowIdName : String := "__row_id"

/-- How one column is resolved. -/
structure ColumnConfig where
  /-- The member whose values are keys. -/
  name : String
  type : MemberType
  /-- The lookup table. -/
  source : String
  /-- The column of the lookup table that holds the keys. -/
  joinColumn : String
  /-- The columns of the lookup table that take the place of the keys. -/
  resolutionColumns : List String
  /-- The values are arrays of keys. -/
  isArrayType : Bool := false
deriving DecidableEq, Repr

namespace ColumnConfig

/-- A config for a column of the given type, which says whether its values are arrays. -/
def ofType (name : String) (type : MemberType) (source joinColumn : String)
    (resolutionColumns : List String) : ColumnConfig :=
  { name, type, source, joinColumn, resolutionColumns, isArrayType := type.isArray }

def safeName (c : ColumnConfig) : String := Member.safeKey c.name

/-- The name of a column that takes the place of the keys. -/
def resolvedName (c : ColumnConfig) (column : String) : String :=
  Member.safeKey (Member.qualify c.name column)

end ColumnConfig

/-- A new expression for a field, which refers to the field by its dotted name. -/
structure SqlOverride where
  fieldName : String
  overrideSql : String
  type : MemberType
deriving DecidableEq, Repr

structure ResolutionConfig where
  columnConfigs : List ColumnConfig := []
  /-- The lookup tables. -/
  tableSchemas : List TableSchema := []
  overrides : List SqlOverride := []
deriving DecidableEq, Repr

namespace ResolutionConfig

def arrayConfigs (c : ResolutionConfig) : List ColumnConfig :=
  c.columnConfigs.filter (·.isArrayType)

def hasArrayColumns (c : ResolutionConfig) : Bool := c.columnConfigs.any (·.isArrayType)

/-- The config of a member, which may be given as its safe key. -/
def columnConfig? (c : ResolutionConfig) (member : String) : Option ColumnConfig :=
  c.columnConfigs.find? (·.safeName = Member.safeKey member)

def sourceSchema? (c : ResolutionConfig) (source : String) : Option TableSchema :=
  c.tableSchemas.find? (·.name = source)

/-- The config without the columns that are not projected. -/
def restrictTo (c : ResolutionConfig) (projections : List String) : ResolutionConfig :=
  { c with
    columnConfigs := c.columnConfigs.filter fun column =>
      column.safeName ∈ projections.map Member.safeKey }

/-- The config with every column under its safe name. -/
def safeKeyed (c : ResolutionConfig) : ResolutionConfig :=
  { c with
    columnConfigs := c.columnConfigs.map fun column => { column with name := column.safeName } }

end ResolutionConfig

/-- A query with columns to resolve. -/
structure Request where
  query : Query
  tableSchemas : List TableSchema
  config : ResolutionConfig := {}
  columnProjections : Option (List String) := none
  context : Option ContextParams := none

/-- The members to put out, which are those of the query unless others are named. -/
def Request.projections (r : Request) : List String :=
  r.columnProjections.getD r.query.members

end SemanticLayer
