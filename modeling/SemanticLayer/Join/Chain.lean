import SemanticLayer.Join.Graph
import SemanticLayer.Join.Path

/-!
# SemanticLayer.Join.Chain

The joined tables of a statement: an origin, and a chain of left joins that follow the join paths.
-/

namespace SemanticLayer

/-- A left join of the table `hop.right`, which has the SQL `sql`. -/
structure JoinClause where
  hop : Hop
  sql : String
  condition : String
deriving DecidableEq, Repr

structure JoinChain where
  origin : String
  originSql : String
  clauses : List JoinClause := []
deriving DecidableEq, Repr

def JoinClause.render (c : JoinClause) : String :=
  " LEFT JOIN (" ++ c.sql ++ ") AS " ++ tableAlias c.hop.right ++ "  ON " ++ c.condition

namespace JoinChain

def renderClauses (chain : JoinChain) : String := String.join (chain.clauses.map (·.render))

/-- The SQL of the origin as it is, followed by the joins. -/
def render (chain : JoinChain) : String := chain.originSql ++ chain.renderClauses

/-- The chain as it stands after `FROM`, with the origin as a named subquery. -/
def renderFrom (chain : JoinChain) : String :=
  "(" ++ chain.originSql ++ ") AS " ++ tableAlias chain.origin ++ chain.renderClauses

def sqlOf (tables : Dictionary) (table : String) : Except CompileError String :=
  match tables.get? table with
  | some sql => .ok sql
  | none => .error (.unknownTable table)

/-- The clause for a hop to a table that is not joined yet. -/
def clauseOf (tables : Dictionary) (graph : JoinGraph) (hop : Hop) :
    Except CompileError JoinClause :=
  match sqlOf tables hop.right with
  | .error e => .error e
  | .ok sql =>
    match graph.condition hop.left hop.right hop.on with
    | some condition => .ok { hop, sql, condition }
    | none => .error (.missingJoinEdge hop.left hop.right hop.on)

/-- One clause for each table that the hops reach, at the first hop that reaches it; `reached` holds
the hops that were taken before. A table may be reached again, but only from the same table. -/
def clausesOf (tables : Dictionary) (graph : JoinGraph) :
    List Hop → List Hop → Except CompileError (List JoinClause)
  | _, [] => .ok []
  | reached, hop :: rest =>
    match reached.find? (·.right = hop.right) with
    | some previous =>
      if previous.left = hop.left then clausesOf tables graph reached rest
      else .error (.ambiguousPath hop.right)
    | none =>
      match clauseOf tables graph hop with
      | .error e => .error e
      | .ok clause =>
        match clausesOf tables graph (hop :: reached) rest with
        | .error e => .error e
        | .ok clauses => .ok (clause :: clauses)

/-- The chain that the paths describe. All paths start at one origin, and a first path that starts
with a single table joins nothing. -/
def ofPaths (paths : List JoinPath) (tables : Dictionary) (graph : JoinGraph) :
    Except CompileError JoinChain :=
  match paths.head?.bind List.head? with
  | none => .error .emptyJoinPath
  | some first =>
    if paths.any (·.origin ≠ some first.left) then .error .mismatchedOrigin
    else
      match sqlOf tables first.left with
      | .error e => .error e
      | .ok originSql =>
        match first with
        | .single _ => .ok { origin := first.left, originSql }
        | .join _ =>
          match clausesOf tables graph [] (paths.flatMap JoinPath.hops) with
          | .error e => .error e
          | .ok clauses => .ok { origin := first.left, originSql, clauses }

end JoinChain
end SemanticLayer
