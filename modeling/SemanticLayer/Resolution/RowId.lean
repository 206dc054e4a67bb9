import SemanticLayer.Resolution.Config

/-!
# SemanticLayer.Resolution.RowId

The row id: a column that numbers the rows of the base query in the order of the query, so that this
order can be restored after joins and grouping.
-/

namespace SemanticLayer
namespace Resolution

/-- The column of an ordered member: that of the first dimension whose name or alias is its safe
key, or else the safe key itself. -/
def orderColumn (dimensions : List Dimension) (member : String) : String :=
  let key := Member.safeKey member
  match dimensions.find? fun d => d.name = key ∨ d.alias = some key with
  | some d => d.column
  | none => key

def rowOrderKey (base : String) (dimensions : List Dimension) (entry : OrderEntry) : String :=
  columnOf base (orderColumn dimensions entry.member) ++ " " ++ entry.direction.sql

def rowNumberSql (order : List OrderEntry) (dimensions : List Dimension) (base : String) : String :=
  if order.isEmpty then "row_number() OVER ()"
  else "row_number() OVER (ORDER BY "
    ++ ", ".intercalate (order.map (rowOrderKey base dimensions)) ++ ")"

def rowIdDimension (order : List OrderEntry) (base : TableSchema) : Dimension where
  name := rowIdName
  sql := rowNumberSql order base.dimensions base.name
  type := .number
  «alias» := some rowIdName

/-- The base schema with its row id. -/
def withRowId (order : List OrderEntry) (base : TableSchema) : TableSchema :=
  base.withDimension (rowIdDimension order base)

/-- Order by the row id and leave it out. -/
def orderByRowId (sql rowId : String) : String :=
  "SELECT * EXCLUDE (" ++ quoteIdentifier rowId ++ ") FROM (" ++ sql
    ++ ") AS __row_id_ordered ORDER BY " ++ quoteIdentifier rowId

end Resolution
end SemanticLayer
