import SemanticLayer.Join.Chain

/-!
# SemanticLayer.Join.Combine

The schemas that take part in a query, and the one schema they combine to.
-/

namespace SemanticLayer

/-- The tables of the members that a query selects or filters by. -/
def Query.tables (q : Query) : List String :=
  (Filter.membersList q.filters ++ q.members).map Member.table

/-- A query without filters uses every schema, one with filters those it mentions. -/
def usedSchemas (schemas : List TableSchema) (q : Query) : List TableSchema :=
  if q.filters.isEmpty then schemas else schemas.filter fun s => s.name ∈ q.tables

/-- The name of a schema that stands for several joined tables. -/
def combinedName : String := "__combined"

/-- The joined tables of the schemas, along the join paths of the query. -/
def joinedChain (schemas : List TableSchema) (q : Query) : Except CompileError JoinChain := do
  let tables := tableSql schemas
  let graph ← JoinGraph.build schemas tables
  JoinPath.validate q.joinPaths
  JoinChain.ofPaths q.joinPaths tables graph

/-- One schema with the fields of all used ones over their joined tables. A single schema is
combined already. -/
def combineSchemas (schemas : List TableSchema) (q : Query) : Except CompileError TableSchema :=
  match schemas with
  | [only] => .ok only
  | _ => do
    let used := usedSchemas schemas q
    let chain ← joinedChain used q
    .ok {
      name := combinedName
      sql := chain.render
      measures := used.flatMap (·.measures)
      dimensions := used.flatMap (·.dimensions) }

end SemanticLayer
