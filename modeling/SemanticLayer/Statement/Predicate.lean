import SemanticLayer.Error
import SemanticLayer.Query
import SemanticLayer.Schema
import SemanticLayer.Text.Numeral

/-!
# SemanticLayer.Statement.Predicate

What a filter asks of a field, and its SQL.
-/

namespace SemanticLayer

/-- A value in a predicate. -/
inductive Literal where
  /-- A number, written as it is. -/
  | number (text : String)
  /-- A text, written in quotes. -/
  | text (s : String)
deriving DecidableEq, Repr

namespace Literal

def sql : Literal → String
  | number n => n
  | text s => quoteString s

/-- A value for a field of the given type. -/
def ofValue (type : MemberType) (value : String) : Literal :=
  if type.isNumeric && Text.isNumeral value.toList then .number value else .text value

end Literal

def literalList (values : List Literal) : String := ", ".intercalate (values.map (·.sql))

inductive Comparison where
  | equal
  | unequal
  | greater
  | greaterEqual
  | less
  | lessEqual
deriving DecidableEq, Repr

def Comparison.sql : Comparison → String
  | equal => "="
  | unequal => "!="
  | greater => ">"
  | greaterEqual => ">="
  | less => "<"
  | lessEqual => "<="

/-- A question about the value of an expression. -/
inductive Test where
  | present
  | absent
  | compare (comparison : Comparison) (value : Literal)
  | among (negated : Bool) (values : List Literal)
  /-- An array shares an element with the values. -/
  | overlaps (negated : Bool) (values : List Literal)
  /-- A text contains one of the parts. -/
  | containing (negated : Bool) (parts : List String)
  | between (negated : Bool) (low high : String)
deriving DecidableEq, Repr

structure Predicate where
  expr : String
  test : Test
deriving DecidableEq, Repr

namespace Predicate

/-- The word `NOT` before a negated test. -/
def negation (negated : Bool) : String := if negated then "NOT " else ""

def renderPart (expr : String) (negated : Bool) (part : String) : String :=
  expr ++ " " ++ negation negated ++ "ILIKE " ++ quoteString ("%" ++ part ++ "%")

def render (p : Predicate) : String :=
  match p.test with
  | .present => p.expr ++ " IS NOT NULL"
  | .absent => p.expr ++ " IS NULL"
  | .compare comparison value => p.expr ++ " " ++ comparison.sql ++ " " ++ value.sql
  | .among negated values =>
    p.expr ++ " " ++ negation negated ++ "IN (" ++ literalList values ++ ")"
  | .overlaps negated values =>
    negation negated ++ "list_has_any(" ++ p.expr ++ ", [" ++ literalList values ++ "])"
  | .containing negated [part] => renderPart p.expr negated part
  | .containing negated parts =>
    "(" ++ (if negated then " AND " else " OR ").intercalate
      (parts.map (renderPart p.expr negated)) ++ ")"
  | .between negated low high =>
    p.expr ++ " " ++ negation negated ++ "BETWEEN " ++ quoteString low ++ " AND "
      ++ quoteString high

/-! ## From filters -/

def needsValue (member : String) : CompileError :=
  .compiler ("filter on " ++ member ++ " needs a value")

def needsRange (member : String) : CompileError :=
  .compiler ("date range filter on " ++ member ++ " needs two values")

/-- A comparison with the first value. -/
def comparing (member : String) (comparison : Comparison) (values : List Literal) :
    Except CompileError Test :=
  match values with
  | value :: _ => .ok (.compare comparison value)
  | [] => .error (needsValue member)

/-- One value is compared, several are listed. -/
def equality (member : String) (negated : Bool) (values : List Literal) :
    Except CompileError Test :=
  match values with
  | [] => .error (needsValue member)
  | [value] => .ok (.compare (if negated then .unequal else .equal) value)
  | values => .ok (.among negated values)

def membership (member : String) (negated : Bool) (values : List Literal) :
    Except CompileError Test :=
  match values with
  | [] => .error (needsValue member)
  | values => .ok (.among negated values)

def containment (member : String) (negated : Bool) (values : List String) :
    Except CompileError Test :=
  match values with
  | [] => .error (needsValue member)
  | values => .ok (.containing negated values)

def dateRange (member : String) (negated : Bool) (values : List String) :
    Except CompileError Test :=
  match values with
  | [low, high] => .ok (.between negated low high)
  | _ => .error (needsRange member)

/-- The test that an operator and its values stand for, on a field of the given type. -/
def testOf (member : String) (type : MemberType) (operator : Operator) (values : List String) :
    Except CompileError Test :=
  let literals := values.map (Literal.ofValue type)
  match operator with
  | .isSet => .ok .present
  | .notSet => .ok .absent
  | .equals =>
    if type.isArray then .ok (.overlaps false literals) else equality member false literals
  | .notEquals =>
    if type.isArray then .ok (.overlaps true literals) else equality member true literals
  | .isIn =>
    if type.isArray then .ok (.overlaps false literals) else membership member false literals
  | .notIn =>
    if type.isArray then .ok (.overlaps true literals) else membership member true literals
  | .contains => containment member false values
  | .notContains => containment member true values
  | .gt => comparing member .greater literals
  | .gte => comparing member .greaterEqual literals
  | .lt => comparing member .less literals
  | .lte => comparing member .lessEqual literals
  | .inDateRange => dateRange member false values
  | .notInDateRange => dateRange member true values

def ofFilter (member : String) (field : Field) (operator : Operator) (values : List String) :
    Except CompileError Predicate :=
  match testOf member field.type operator values with
  | .ok test => .ok { expr := field.sql, test }
  | .error e => .error e

end Predicate
end SemanticLayer
