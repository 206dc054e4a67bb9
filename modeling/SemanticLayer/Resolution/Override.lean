import SemanticLayer.Error
import SemanticLayer.Resolution.Config

/-!
# SemanticLayer.Resolution.Override

SQL overrides: the expression of a field is replaced by another one, in which the dotted name of the
field stands for the expression that was there before.
-/

namespace SemanticLayer
namespace SqlOverride

/-- The name by which the override refers to its field. -/
def reference (o : SqlOverride) : String := Member.dottedKey o.fieldName

/-- The override mentions its field. -/
def isValid (o : SqlOverride) : Bool :=
  Text.occurs o.reference.toList o.overrideSql.toList

/-- The new expression of a field that has the expression `sql`. -/
def substitute (o : SqlOverride) (sql : String) : String :=
  String.ofList (Text.replaceWord o.reference.toList sql.toList o.overrideSql.toList)

def onDimension (o : SqlOverride) (d : Dimension) : Dimension :=
  if d.name = o.fieldName then { d with sql := o.substitute d.sql, type := o.type } else d

def onMeasure (o : SqlOverride) (m : Measure) : Measure :=
  if m.name = o.fieldName then { m with sql := o.substitute m.sql, type := o.type } else m

def apply (s : TableSchema) (o : SqlOverride) : Except CompileError TableSchema :=
  if o.isValid then
    .ok { s with
      dimensions := s.dimensions.map o.onDimension
      measures := s.measures.map o.onMeasure }
  else .error (.invalidOverride o.fieldName o.reference o.overrideSql)

end SqlOverride

/-- Apply the overrides in order; a later one sees the expressions that earlier ones wrote. -/
def applyOverrides (s : TableSchema) (overrides : List SqlOverride) :
    Except CompileError TableSchema :=
  overrides.foldlM SqlOverride.apply s

end SemanticLayer
