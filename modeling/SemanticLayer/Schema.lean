import SemanticLayer.Member

/-!
# SemanticLayer.Schema

Table schemas: the SQL of a table, its dimensions and measures, and the joins it declares.
-/

namespace SemanticLayer

inductive MemberType where
  | string
  | stringArray
  | time
  | number
  | numberArray
  | boolean
deriving DecidableEq, Repr

namespace MemberType

def isArray : MemberType → Bool
  | stringArray | numberArray => true
  | _ => false

def isNumeric : MemberType → Bool
  | number => true
  | _ => false

end MemberType

structure Measure where
  name : String
  sql : String
  type : MemberType
  «alias» : Option String := none
deriving DecidableEq, Repr

/-- How an array dimension is to be unfolded. -/
structure DimensionModifier where
  /-- One row for each element. -/
  flattenArray : Bool := false
  /-- One group for each element. -/
  unnestGroupBy : Bool := false
deriving DecidableEq, Repr

structure Dimension where
  name : String
  sql : String
  type : MemberType
  «alias» : Option String := none
  modifier : Option DimensionModifier := none
deriving DecidableEq, Repr

namespace Dimension

def shouldFlattenArray (d : Dimension) : Bool :=
  d.type.isArray && d.modifier.any (·.flattenArray)

def shouldUnnestGroupBy (d : Dimension) : Bool :=
  d.type.isArray && d.modifier.any (·.unnestGroupBy)

/-- The column that holds the dimension once its schema has been compiled. -/
def column (d : Dimension) : String := d.alias.getD d.name

end Dimension

/-- The column `name` of the table `table`. -/
def columnOf (table name : String) : String := table ++ "." ++ quoteIdentifier name

/-- The dimension as a column of the compiled table `table`. -/
def Dimension.reference (table : String) (d : Dimension) : String := columnOf table d.column

/-- A join as its table declares it: an equation between two columns. -/
structure JoinDeclaration where
  sql : String
deriving DecidableEq, Repr

inductive Field where
  | dimension (d : Dimension)
  | measure (m : Measure)
deriving DecidableEq, Repr

namespace Field

def name : Field → String
  | dimension d => d.name
  | measure m => m.name

def sql : Field → String
  | dimension d => d.sql
  | measure m => m.sql

def type : Field → MemberType
  | dimension d => d.type
  | measure m => m.type

def «alias» : Field → Option String
  | dimension d => d.alias
  | measure m => m.alias

def isMeasure : Field → Bool
  | dimension _ => false
  | measure _ => true

end Field

structure TableSchema where
  name : String
  sql : String
  measures : List Measure := []
  dimensions : List Dimension := []
  joins : List JoinDeclaration := []
deriving DecidableEq, Repr

namespace TableSchema

def withMeasure (s : TableSchema) (m : Measure) : TableSchema :=
  { s with measures := s.measures ++ [m] }

def withDimension (s : TableSchema) (d : Dimension) : TableSchema :=
  { s with dimensions := s.dimensions ++ [d] }

def withJoin (s : TableSchema) (sql : String) : TableSchema :=
  { s with joins := s.joins ++ [{ sql }] }

def dimension? (s : TableSchema) (name : String) : Option Dimension :=
  s.dimensions.find? (·.name = name)

def measure? (s : TableSchema) (name : String) : Option Measure :=
  s.measures.find? (·.name = name)

/-- The field of that name; a dimension goes before a measure. -/
def field? (s : TableSchema) (name : String) : Option Field :=
  match s.dimension? name with
  | some d => some (.dimension d)
  | none => (s.measure? name).map .measure

end TableSchema

/-- The field a member stands for: the first one of that name in the schemas of that name. -/
def findField (schemas : List TableSchema) (member : String) : Option Field :=
  (schemas.filter (·.name = (Member.split member).1)).findSome?
    (·.field? (Member.split member).2)

end SemanticLayer
