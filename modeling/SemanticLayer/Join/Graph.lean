import SemanticLayer.Error
import SemanticLayer.Schema
import SemanticLayer.Dictionary
import SemanticLayer.Join.Declaration

/-!
# SemanticLayer.Join.Graph

The join graph: its nodes are tables, and an edge is a declared join, directed from the table that
declares it. Two tables may be joined over several columns.
-/

namespace SemanticLayer

/-- A declared join from the table `source` to the table `target`, over the column `column` of
`source`. -/
structure JoinEdge where
  source : String
  target : String
  column : String
  condition : String
deriving DecidableEq, Repr

/-- An edge between two tables that are given by their numbers. -/
structure JoinLink where
  source : Nat
  target : Nat
  column : String
  condition : String
deriving DecidableEq, Repr

/-- The tables of a graph are numbered in order of first mention; an edge mentions its source before
its target. -/
structure JoinGraph where
  /-- The name of each table, at the place of its number. -/
  tables : List String := []
  /-- The number of each table, by its name. -/
  numbers : List (String × Nat) := []
  /-- In order of insertion. -/
  links : List JoinLink := []
deriving DecidableEq, Repr

/-- The SQL of every table. Of several schemas with one name the last one counts. -/
def tableSql (schemas : List TableSchema) : Dictionary :=
  Dictionary.ofList (schemas.map fun s => (s.name, s.sql))

namespace JoinGraph

def empty : JoinGraph := {}

def number? (g : JoinGraph) (table : String) : Option Nat := g.numbers.lookup table

/-- The edge that a link stands for. -/
def edge? (g : JoinGraph) (l : JoinLink) : Option JoinEdge :=
  match g.tables[l.source]?, g.tables[l.target]? with
  | some source, some target =>
    some { source, target, column := l.column, condition := l.condition }
  | _, _ => none

/-- In order of insertion. -/
def edges (g : JoinGraph) : List JoinEdge := g.links.filterMap g.edge?

def edgeCount (g : JoinGraph) : Nat := g.links.length

/-! ## Questions by name -/

def condition (g : JoinGraph) (source target column : String) : Option String :=
  match g.number? source, g.number? target with
  | some s, some t =>
    (g.links.find? fun l => l.source = s ∧ l.target = t ∧ l.column = column).map (·.condition)
  | _, _ => none

def hasEdge (g : JoinGraph) (source target : String) : Bool :=
  match g.number? source, g.number? target with
  | some s, some t => g.links.any fun l => l.source = s ∧ l.target = t
  | _, _ => false

def edgesFrom (g : JoinGraph) (table : String) : List JoinEdge :=
  match g.number? table with
  | some n => (g.links.filter (·.source = n)).filterMap g.edge?
  | none => []

/-- The tables that no edge leads to. -/
def startingTables (g : JoinGraph) : List String :=
  (g.tables.zipIdx.filter fun t => g.links.all (·.target ≠ t.2)).map (·.1)

/-! ## Adding edges -/

/-- The graph with one more table, under the next number. -/
def withTable (g : JoinGraph) (table : String) : JoinGraph :=
  { g with
    tables := g.tables ++ [table]
    numbers := (table, g.tables.length) :: g.numbers }

/-- The number of a table, and the graph in which it has that number: a new table is added. -/
def enter (g : JoinGraph) (table : String) : Nat × JoinGraph :=
  match g.number? table with
  | some n => (n, g)
  | none => (g.tables.length, g.withTable table)

/-- Add an edge: the answer, and the graph afterwards. A table is not joined to itself, and not
twice to another one over the same column. -/
def insert (g : JoinGraph) (e : JoinEdge) : Except CompileError Unit × JoinGraph :=
  if e.source = e.target ∨ (g.condition e.source e.target e.column).isSome then
    (.error .invalidPath, g)
  else
    let (source, g) := g.enter e.source
    let (target, g) := g.enter e.target
    let link := { source, target, column := e.column, condition := e.condition }
    (.ok (), { g with links := g.links ++ [link] })

/-- The graph with one more edge. -/
def addEdge (g : JoinGraph) (e : JoinEdge) : Except CompileError JoinGraph :=
  match g.insert e with
  | (.ok _, g) => .ok g
  | (.error err, _) => .error err

/-! ## Cycles -/

/-- The edges that start at a table some edge leads to. -/
def peel (edges : List JoinEdge) : List JoinEdge :=
  edges.filter fun e => edges.any (·.target = e.source)

def peelTimes : Nat → List JoinEdge → List JoinEdge
  | 0, edges => edges
  | n + 1, edges => peelTimes n (peel edges)

/-- Some edges lead back to where they start. An edge on no cycle and behind none is peeled off
after as many rounds as there are edges at most. -/
def hasCycle (g : JoinGraph) : Bool :=
  !(peelTimes g.edges.length g.edges).isEmpty

/-! ## Building the graph from declarations -/

/-- The edge that the declaration `sql` of the table `owner` stands for. It starts at `owner`, on
whichever side `owner` is written. -/
def edgeOf (owner sql : String) : Except CompileError JoinEdge :=
  match parseJoin sql with
  | none => .error (.invalidJoinSql sql)
  | some (left, right) =>
    if left.table = right.table then .error (.invalidJoinSql sql)
    else if left.table = owner then
      .ok { source := owner, target := right.table, column := left.column, condition := sql }
    else if right.table = owner then
      .ok { source := owner, target := left.table, column := right.column, condition := sql }
    else .error (.joinTableNotFound owner sql)

/-- Add a declared join. A join with a table outside `known` is left out. -/
def declare (known : Dictionary) (g : JoinGraph) (d : String × JoinDeclaration) :
    Except CompileError JoinGraph :=
  match edgeOf d.1 d.2.sql with
  | .error e => .error e
  | .ok e => if known.contains e.source && known.contains e.target then g.addEdge e else .ok g

/-- The declarations of all schemas, each with the name of its table. -/
def declarations (schemas : List TableSchema) : List (String × JoinDeclaration) :=
  schemas.flatMap fun s => s.joins.map fun j => (s.name, j)

def build (schemas : List TableSchema) (known : Dictionary) : Except CompileError JoinGraph :=
  (declarations schemas).foldlM (declare known) empty

end JoinGraph
end SemanticLayer
