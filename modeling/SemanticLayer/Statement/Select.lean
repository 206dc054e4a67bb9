import SemanticLayer.Join.Chain
import SemanticLayer.Statement.Condition

/-!
# SemanticLayer.Statement.Select

Select statements and their SQL.
-/

namespace SemanticLayer

/-- An output column of a statement. -/
structure Column where
  expr : String
  label : Label
deriving DecidableEq, Repr

def Column.render (c : Column) : String := c.expr ++ " AS " ++ c.label.sql

structure OrderKey where
  target : String
  direction : SortDirection
deriving DecidableEq, Repr

def OrderKey.render (k : OrderKey) : String := k.target ++ " " ++ k.direction.sql

structure Select where
  columns : List Column
  source : JoinChain
  /-- Conditions on the rows before they are grouped. -/
  rows : List Condition := []
  /-- The rows are grouped by this many columns from the left, or not at all when there are none. -/
  groupedBy : Nat := 0
  /-- Conditions on the groups. -/
  groups : List Condition := []
  order : List OrderKey := []
  limit : Option UInt64 := none
  offset : Option UInt64 := none
deriving Repr

namespace Select

/-- A clause that is left out when it has no content. -/
def clause (keyword content : String) (isEmpty : Bool) : String :=
  if isEmpty then "" else " " ++ keyword ++ " " ++ content

def renderConditions (keyword : String) (conditions : List Condition) : String :=
  clause keyword (Token.render (Condition.conjunction conditions)) conditions.isEmpty

def ordinals (n : Nat) : List String := (List.range n).map fun i => toString (i + 1)

def renderPaging (keyword : String) : Option UInt64 → String
  | some n => " " ++ keyword ++ " " ++ toString n.toNat
  | none => ""

def render (s : Select) : String :=
  "SELECT " ++ ", ".intercalate (s.columns.map (·.render))
    ++ " FROM " ++ s.source.renderFrom
    ++ renderConditions "WHERE" s.rows
    ++ clause "GROUP BY" (", ".intercalate (ordinals s.groupedBy)) (s.groupedBy == 0)
    ++ renderConditions "HAVING" s.groups
    ++ clause "ORDER BY" (", ".intercalate (s.order.map (·.render))) s.order.isEmpty
    ++ renderPaging "LIMIT" s.limit
    ++ renderPaging "OFFSET" s.offset

end Select
end SemanticLayer
