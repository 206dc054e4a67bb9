import SemanticLayer.Resolution.Alias
import SemanticLayer.Resolution.Compiler
import SemanticLayer.Resolution.Lookup
import SemanticLayer.Resolution.RowId

/-!
# SemanticLayer.Resolution.Phase

The phases of array resolution. Each one compiles a query over the schema it is given and answers
with a schema over the compiled SQL:

* `unnest` makes one row of each element of the array columns,
* `resolve` joins the lookup tables,
* `aggregate` puts the rows that came from one row together again,
* `restoreAliases` names the columns.
-/

namespace SemanticLayer
namespace Resolution

/-- A query for all dimensions of a schema. -/
def allDimensions (s : TableSchema) : Query :=
  { dimensions := s.dimensions.map fun d => Member.qualify s.name d.name }

/-! ## Unnesting arrays -/

/-- One row for each element of an array; an empty or missing array keeps its row. -/
def flattenSql (expr : String) : String :=
  "unnest(CASE WHEN " ++ expr ++ " IS NULL OR len(COALESCE(" ++ expr
    ++ ", [])) = 0 THEN [NULL] ELSE " ++ expr ++ " END)"

def flatten (d : Dimension) : Dimension :=
  if d.shouldFlattenArray then { d with sql := flattenSql d.sql } else d

/-- Mark the dimensions that hold arrays of keys for flattening. -/
def flagArrays (config : ResolutionConfig) (s : TableSchema) : TableSchema :=
  let names := config.arrayConfigs.map (·.safeName)
  { s with
    dimensions := s.dimensions.map fun d =>
      if d.name ∈ names then
        { d with modifier := some { d.modifier.getD {} with flattenArray := true } }
      else d }

/-- The schema whose array columns are unnested. -/
def flattened (config : ResolutionConfig) (s : TableSchema) : TableSchema :=
  let flagged := flagArrays config s
  { flagged with dimensions := flagged.dimensions.map flatten }

def unnest {σ : Type} (compiler : Compiler σ) (base : TableSchema) (config : ResolutionConfig)
    (context : Option ContextParams) : Calling σ TableSchema := do
  let schema := flattened config base
  let sql ← compiler { query := allDimensions schema, schemas := [schema], context }
  return wrapperSchema sql base

/-! ## Joining the lookup tables -/

/-- The dimensions that a projection ends up in. Of several lookup tables with one name the last one
counts. -/
def resolvedDimensions (wrapper : TableSchema) (lookups : List TableSchema) (projection : String) :
    Except CompileError (List Dimension) :=
  match lookups.reverse.find? (·.name = projection) with
  | some lookup => .ok (lookup.dimensions.map fun d =>
      { d with sql := d.reference wrapper.name, modifier := none })
  | none =>
    match wrapper.dimension? projection with
    | some d => .ok [d]
    | none => .error (.unknownProjection projection)

def resolve {σ : Type} (compiler : Compiler σ) (base : TableSchema) (config : ResolutionConfig)
    (projections : List String) (context : Option ContextParams) : Calling σ TableSchema := do
  let lookups ← Calling.ofExcept (lookupSchemas config)
  let projections := projections.map Member.safeKey
  let query : Query :=
    { dimensions := expandMembers base.name config projections
      joinPaths := lookupPaths base config.columnConfigs }
  let sql ← compiler { query, schemas := base :: lookups, context }
  let wrapper := wrapperSchema sql base
  let dimensions ← Calling.ofExcept (projections.mapM (resolvedDimensions wrapper lookups))
  return { wrapper with dimensions := dimensions.flatten }

/-! ## Grouping by row -/

/-- A column that came out of an array of keys: its name starts with that of the array. -/
def isResolvedArray (config : ResolutionConfig) (name : String) : Bool :=
  config.arrayConfigs.any fun c => (c.safeName.toList ++ ['_', '_']).isPrefixOf name.toList

/-- One value for all rows of a group: the distinct values of an array column, any other column's
only value. -/
def aggregationSql (expr : String) (isArray : Bool) : String :=
  if isArray then
    "COALESCE(ARRAY_AGG(DISTINCT " ++ expr ++ ") FILTER (WHERE " ++ expr ++ " IS NOT NULL), [])"
  else "MAX(" ++ expr ++ ")"

def aggregateMeasure (config : ResolutionConfig) (d : Dimension) : Measure where
  name := d.name
  sql := aggregationSql d.sql (isResolvedArray config d.name)
  type := d.type
  «alias» := d.alias

/-- The schema with the row id as its only dimension and every other column as a measure. -/
def grouped (config : ResolutionConfig) (s : TableSchema) (rowId : Dimension) : TableSchema :=
  { s with
    dimensions := [rowId]
    measures := (s.dimensions.filter (·.name ≠ rowId.name)).map (aggregateMeasure config) }

def groupedQuery (s : TableSchema) : Query :=
  { allDimensions s with measures := s.measures.map fun m => Member.qualify s.name m.name }

def aggregate {σ : Type} (compiler : Compiler σ) (resolved : TableSchema)
    (config : ResolutionConfig) (context : Option ContextParams) : Calling σ TableSchema := do
  match resolved.dimension? rowIdName with
  | none => throw .missingRowId
  | some rowId =>
    let schema := grouped config resolved rowId
    let sql ← compiler { query := groupedQuery schema, schemas := [schema], context }
    return wrapperSchema (orderByRowId sql rowIdName) { schema with dimensions := [], joins := [] }

/-! ## Restoring aliases -/

def restoreAliases {σ : Type} (compiler : Compiler σ) (aggregated : TableSchema)
    (schemas : List TableSchema) (config : ResolutionConfig) (context : Option ContextParams) :
    Calling σ String := do
  let aliases ← Calling.ofExcept (aliasMap schemas config)
  let schema := applyAliases aliases aggregated
  compiler { query := allDimensions schema, schemas := [schema], context }

end Resolution
end SemanticLayer
