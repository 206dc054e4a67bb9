import SemanticLayer.Join.Combine
import SemanticLayer.Statement.Select

/-!
# SemanticLayer.Statement.Compile

From queries to select statements.
-/

namespace SemanticLayer

/-- A selected member, the field it stands for and the label it gets. -/
structure Projection where
  member : String
  field : Field
  label : Label
deriving DecidableEq, Repr

namespace Projection

def ofMember (style : KeyStyle) (schemas : List TableSchema) (member : String) :
    Except CompileError Projection :=
  match Condition.lookup schemas member with
  | .ok field => .ok { member, field, label := .ofMember style member field.alias }
  | .error e => .error e

/-- The expression of a field. An array that is grouped by its elements is unnested and each element
put back into an array of its own. -/
def expr (grouped : Bool) : Field → String
  | .dimension d =>
    if grouped && d.shouldUnnestGroupBy then "array[unnest(" ++ d.sql ++ ")]" else d.sql
  | .measure m => m.sql

def column (grouped : Bool) (p : Projection) : Column where
  expr := expr grouped p.field
  label := p.label

end Projection

namespace Select

/-- The schemas a query is compiled over. A single schema is used as it is. -/
def schemasFor (q : Query) (schemas : List TableSchema) : List TableSchema :=
  match schemas with
  | [only] => [only]
  | _ => usedSchemas schemas q

/-- The tables a query reads from. Over several schemas the origin is looked up before the paths are
compared with each other. -/
def sourceOf (q : Query) (used : List TableSchema) : Except CompileError JoinChain :=
  match used with
  | [only] => .ok { origin := only.name, originSql := only.sql }
  | _ => do
    let tables := tableSql used
    let graph ← JoinGraph.build used tables
    JoinPath.validate q.joinPaths
    match q.joinPaths.head?.bind JoinPath.origin with
    | none => .error .emptyJoinPath
    | some origin =>
      let _ ← JoinChain.sqlOf tables origin
      JoinChain.ofPaths q.joinPaths tables graph

/-- A filter on a measure restricts groups, any other one rows. -/
def onMeasure (schemas : List TableSchema) (f : Filter) : Bool :=
  f.members.any fun m => (findField schemas m).any (·.isMeasure)

/-- A selected member is ordered by its label, any other one by its expression. -/
def orderKey (schemas : List TableSchema) (projections : List Projection) (entry : OrderEntry) :
    Except CompileError OrderKey :=
  match projections.find? (·.member = entry.member) with
  | some p => .ok { target := p.label.sql, direction := entry.direction }
  | none =>
    match Condition.lookup schemas entry.member with
    | .ok field => .ok { target := field.sql, direction := entry.direction }
    | .error e => .error e

/-- Filters with the conditions they stand for. -/
def conditionsOf (schemas : List TableSchema) (filters : List Filter) :
    Except CompileError (List (Filter × Condition)) :=
  filters.mapM fun f => do
    let c ← Condition.ofFilter schemas f
    return (f, c)

/-- The statement for a query over the schemas it uses. -/
def ofUsed (style : KeyStyle) (q : Query) (used : List TableSchema) :
    Except CompileError Select := do
  let source ← sourceOf q used
  let dimensions ← q.dimensions.mapM (Projection.ofMember style used)
  let measures ← q.measures.mapM (Projection.ofMember style used)
  if dimensions.isEmpty && measures.isEmpty then
    .error (.compiler "query projects no members")
  else
    let projections := dimensions ++ measures
    let conditions ← conditionsOf used q.filters
    let order ← q.order.mapM (orderKey used projections)
    .ok {
      columns := projections.map (Projection.column (!measures.isEmpty))
      source
      rows := (conditions.filter fun c => !onMeasure used c.1).map (·.2)
      groupedBy := if measures.isEmpty then 0 else dimensions.length
      groups := (conditions.filter fun c => onMeasure used c.1).map (·.2)
      order
      limit := q.limit
      offset := q.offset }

def ofQuery (style : KeyStyle) (q : Query) (schemas : List TableSchema) :
    Except CompileError Select :=
  if schemas.isEmpty then .error (.compiler "no table schemas provided")
  else ofUsed style q (schemasFor q schemas)

end Select

/-- The SQL of a query over table schemas. -/
def compileQuery (style : KeyStyle) (q : Query) (schemas : List TableSchema) :
    Except CompileError String :=
  match Select.ofQuery style q schemas with
  | .ok statement => .ok statement.render
  | .error e => .error e

end SemanticLayer
