import SemanticLayer.Dictionary

/-!
# SemanticLayer.Query

Queries over table schemas: the members to select, filters, join paths, order and paging.
-/

namespace SemanticLayer

/-- A join step from the table `left` to the table `right`, over the column `on` of `left`. -/
structure Hop where
  left : String
  right : String
  on : String
deriving DecidableEq, Repr

inductive PathNode where
  | join (hop : Hop)
  /-- A table that is joined to nothing. -/
  | single (table : String)
deriving DecidableEq, Repr

namespace PathNode

def left : PathNode → String
  | join hop => hop.left
  | single table => table

def hop? : PathNode → Option Hop
  | join hop => some hop
  | single _ => none

def render : PathNode → String
  | join hop => hop.left ++ " -[" ++ hop.on ++ "]-> " ++ hop.right
  | single table => table

end PathNode

abbrev JoinPath := List PathNode

namespace JoinPath

/-- The table a path starts from. -/
def origin (path : JoinPath) : Option String := path.head?.map (·.left)

def render (path : JoinPath) : String :=
  "[" ++ ", ".intercalate (path.map (·.render)) ++ "]"

end JoinPath

inductive Operator where
  | equals
  | notEquals
  | contains
  | notContains
  | isIn
  | notIn
  | gt
  | gte
  | lt
  | lte
  | isSet
  | notSet
  | inDateRange
  | notInDateRange
deriving DecidableEq, Repr

inductive Filter where
  | all (filters : List Filter)
  | any (filters : List Filter)
  | member (member : String) (operator : Operator) (values : List String)
deriving Repr

namespace Filter

mutual
/-- The members a filter mentions, from left to right. -/
def members : Filter → List String
  | all filters => membersList filters
  | any filters => membersList filters
  | member m _ _ => [m]

def membersList : List Filter → List String
  | [] => []
  | f :: rest => members f ++ membersList rest
end

end Filter

inductive SortDirection where
  | ascending
  | descending
deriving DecidableEq, Repr

def SortDirection.sql : SortDirection → String
  | ascending => "ASC"
  | descending => "DESC"

structure OrderEntry where
  member : String
  direction : SortDirection
deriving DecidableEq, Repr

structure Query where
  measures : List String := []
  dimensions : List String := []
  filters : List Filter := []
  joinPaths : List JoinPath := []
  order : List OrderEntry := []
  limit : Option UInt64 := none
  offset : Option UInt64 := none
deriving Repr

namespace Query

/-- The members a query selects. -/
def members (q : Query) : List String := q.measures ++ q.dimensions

def withMeasures (q : Query) (members : List String) : Query :=
  { q with measures := q.measures ++ members }

def withDimensions (q : Query) (members : List String) : Query :=
  { q with dimensions := q.dimensions ++ members }

def withFilter (q : Query) (filter : Filter) : Query :=
  { q with filters := q.filters ++ [filter] }

def withJoinPath (q : Query) (path : JoinPath) : Query :=
  { q with joinPaths := q.joinPaths ++ [path] }

def withOrder (q : Query) (member : String) (direction : SortDirection) : Query :=
  { q with order := q.order ++ [{ member, direction }] }

def withLimit (q : Query) (limit : UInt64) : Query := { q with limit := some limit }

end Query

/-- Named values a caller hands through to the query compiler. -/
abbrev ContextParams := Dictionary

end SemanticLayer
