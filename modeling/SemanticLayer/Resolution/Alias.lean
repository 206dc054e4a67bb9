import SemanticLayer.Error
import SemanticLayer.Resolution.Config

/-!
# SemanticLayer.Resolution.Alias

The aliases that the columns of a resolved query get back.
-/

namespace SemanticLayer
namespace Resolution

/-- The names of the fields of a schema that have an alias, dimensions first. -/
def aliasedFields (s : TableSchema) : List (String × String) :=
  s.dimensions.filterMap (fun d => d.alias.map fun a => (d.name, a))
    ++ s.measures.filterMap (fun m => m.alias.map fun a => (m.name, a))

/-- The alias of one of several lookup columns, made from that of the column and its own. -/
def lookupAlias (source : TableSchema) (config : ColumnConfig) (given column : String) :
    Except CompileError (String × String) :=
  match (source.dimension? column).bind (·.alias) with
  | some own => .ok (config.resolvedName column, Member.compoundAlias given own)
  | none => .error (.missingAlias column)

/-- The columns that a field with an alias ends up in, with their aliases. -/
def aliasEntries (config : ResolutionConfig) (column given : String) :
    Except CompileError (List (String × String)) :=
  match config.columnConfig? column with
  | none => .ok [(column, given)]
  | some c =>
    match c.resolutionColumns with
    | [only] => .ok [(c.resolvedName only, given)]
    | columns =>
      match config.sourceSchema? c.source with
      | none => .error (.missingSourceSchema c.source)
      | some source => columns.mapM (lookupAlias source c given)

/-- The fields with an alias, each under its safe key. -/
def aliasedColumns (schemas : List TableSchema) : List (String × String) :=
  schemas.flatMap fun s =>
    (aliasedFields s).map fun f => (Member.safeKey (Member.qualify s.name f.1), f.2)

/-- The aliases of all output columns. A column that gets several keeps the last one. -/
def aliasMap (schemas : List TableSchema) (config : ResolutionConfig) :
    Except CompileError Dictionary := do
  let entries ← (aliasedColumns schemas).mapM fun f => aliasEntries config f.1 f.2
  .ok (Dictionary.ofList entries.flatten)

/-- Give each dimension its alias, or else its own name. -/
def applyAliases (aliases : Dictionary) (s : TableSchema) : TableSchema :=
  { s with
    dimensions := s.dimensions.map fun d =>
      { d with «alias» := some ((aliases.get? d.name).getD d.name) } }

end Resolution
end SemanticLayer
