import SemanticLayer.Resolution.Override
import SemanticLayer.Resolution.Phase

/-!
# SemanticLayer.Resolution.Pipeline

Compiling a query and resolving its columns. Without arrays of keys the lookup tables are joined in
one step; with them the query goes through the four phases of array resolution.
-/

namespace SemanticLayer
namespace Resolution

/-- The base query as a table with overridden expressions and a row id. -/
def preparedBase (style : KeyStyle) (baseSql : String) (request : Request)
    (config : ResolutionConfig) (members : List String) : Except CompileError TableSchema := do
  let base ← baseSchema style baseSql request.tableSchemas config.columnConfigs members
  let base ← applyOverrides base config.overrides
  .ok (withRowId request.query.order base)

def resolveArrays {σ : Type} (compiler : Compiler σ) (style : KeyStyle) (request : Request)
    (baseSql : String) (config : ResolutionConfig) : Calling σ String := do
  let base ← Calling.ofExcept (preparedBase style baseSql request config request.projections)
  let keyed := config.safeKeyed
  let unnested ← unnest compiler base keyed request.context
  let resolved ←
    resolve compiler unnested keyed (request.projections ++ [rowIdName]) request.context
  let aggregated ← aggregate compiler resolved keyed request.context
  restoreAliases compiler aggregated request.tableSchemas keyed request.context

def resolveScalars {σ : Type} (compiler : Compiler σ) (style : KeyStyle) (request : Request)
    (baseSql : String) (config : ResolutionConfig) : Calling σ String := do
  let base ← Calling.ofExcept (preparedBase style baseSql request config request.query.members)
  let aliases ← Calling.ofExcept (aliasMap request.tableSchemas config)
  let lookups ← Calling.ofExcept (lookupSchemas config)
  let query : Query :=
    { dimensions := expandMembers base.name config request.projections
        ++ [Member.qualify base.name rowIdName]
      joinPaths := lookupPaths base config.columnConfigs }
  let sql ← compiler
    { query, schemas := base :: lookups.map (applyAliases aliases), context := request.context }
  return orderByRowId sql rowIdName

/-- Compile a query, and resolve those of its columns that are projected. -/
def compile {σ : Type} (compiler : Compiler σ) (style : KeyStyle) (request : Request) :
    Calling σ String := do
  let baseSql ← compiler
    { query := request.query, schemas := request.tableSchemas, context := request.context }
  let projected := request.config.restrictTo request.projections
  if projected.columnConfigs.isEmpty then return baseSql
  else if projected.hasArrayColumns then resolveArrays compiler style request baseSql projected
  else resolveScalars compiler style request baseSql projected

end Resolution
end SemanticLayer
