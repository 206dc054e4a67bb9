/-!
# SemanticLayer.Error

Why a query or its configuration is rejected, and the text that says so.
-/

namespace SemanticLayer

inductive CompileError where
  | invalidJoinSql (sql : String)
  | joinTableNotFound (table sql : String)
  | invalidPath
  | emptyJoinPath
  | mismatchedOrigin
  | ambiguousPath (table : String)
  | loopDetected (paths : String)
  | missingJoinEdge (left right on : String)
  | unknownTable (table : String)
  | unknownMember (member : String)
  | unknownProjection (column : String)
  | missingSourceSchema (source : String)
  | missingDimension (column : String)
  | missingRowId
  | missingAlias (column : String)
  | invalidOverride (field expected sql : String)
  | compiler (reason : String)
deriving DecidableEq, Repr

inductive ErrorCategory where
  /-- The text of a join declaration is malformed. -/
  | parse
  /-- The declared joins do not form a join graph. -/
  | graph
  /-- The join paths of a query contradict each other or the declared joins. -/
  | path
  /-- A table, a member or an alias is missing. -/
  | schema
  /-- The query compiler failed. -/
  | compiler
deriving DecidableEq, Repr

namespace CompileError

def category : CompileError → ErrorCategory
  | invalidJoinSql _ => .parse
  | joinTableNotFound _ _ | invalidPath => .graph
  | emptyJoinPath | mismatchedOrigin | ambiguousPath _ | loopDetected _ | missingJoinEdge _ _ _
  | unknownTable _ => .path
  | unknownMember _ | unknownProjection _ | missingSourceSchema _ | missingDimension _
  | missingRowId | missingAlias _ | invalidOverride _ _ _ => .schema
  | compiler _ => .compiler

def message : CompileError → String
  | invalidJoinSql sql => "Invalid join SQL: " ++ sql
  | joinTableNotFound table sql =>
    "Table \"" ++ table ++ "\" not found in provided join SQL: " ++ sql
  | invalidPath => "An invalid path was detected."
  | emptyJoinPath => "Invalid path, multiple data sources are present without a join path."
  | mismatchedOrigin => "Invalid path, starting node is not the same for all paths."
  | ambiguousPath table => "Path ambiguity, node " ++ table ++ " visited from different sources"
  | loopDetected paths => "A loop was detected in the joins. " ++ paths
  | missingJoinEdge left right on =>
    "No join condition from '" ++ left ++ "' to '" ++ right ++ "' on '" ++ on ++ "'"
  | unknownTable table => "No SQL registered for table '" ++ table ++ "'"
  | unknownMember member => "Not found: " ++ member
  | unknownProjection column =>
    "Column projection '" ++ column ++ "' not found in base table schema dimensions"
  | missingSourceSchema source => "Source table schema not found for " ++ source
  | missingDimension column => "Dimension not found: " ++ column
  | missingRowId => "Row id dimension not found"
  | missingAlias column => "Source field alias not found for " ++ column
  | invalidOverride field expected sql =>
    "SQL override for field '" ++ field ++ "' must reference the field as '" ++ expected
      ++ "' in the SQL. Current SQL: " ++ sql
  | compiler reason => "Query compiler failed: " ++ reason

end CompileError

def ErrorCategory.name : ErrorCategory → String
  | parse => "Parse"
  | graph => "Graph"
  | path => "Path"
  | schema => "Schema"
  | compiler => "Compiler"

end SemanticLayer
