import SemanticLayer.Text.Quoted

/-!
# SemanticLayer.Join.Declaration

The two sides of a declared join. A declaration is an equation `table.column = table.column`, in
which each name is bare or quoted.
-/

namespace SemanticLayer

/-- One side of a declared join. -/
structure JoinSide where
  table : String
  column : String
deriving DecidableEq, Repr

namespace JoinSide

/-- The table of a trimmed side and the text after the dot that ends it. -/
def cutTable : List Char → Option (List Char × List Char)
  | '"' :: rest =>
    match Text.closeQuoted rest with
    | some (table, '.' :: rest) => some (table, rest)
    | _ => none
  | cs => (Text.cutAt '.' cs).map fun parts => (Text.trim parts.1, parts.2)

/-- The column that the trimmed text after the table stands for. A bare column has no dot. -/
def readColumn (cs : List Char) : Option (List Char) :=
  if cs.head? ≠ some '"' ∧ '.' ∈ cs then none else some (Text.unquote cs)

def parse (cs : List Char) : Option JoinSide :=
  match cutTable (Text.trim cs) with
  | none => none
  | some (table, rest) =>
    match readColumn (Text.trim rest) with
    | none => none
    | some column =>
      if table.isEmpty || column.isEmpty then none
      else some ⟨String.ofList table, String.ofList column⟩

end JoinSide

/-- The two sides of a declaration. It has exactly one equals sign. -/
def parseJoin (sql : String) : Option (JoinSide × JoinSide) :=
  match Text.splitAt '=' sql.toList with
  | [left, right] =>
    match JoinSide.parse left, JoinSide.parse right with
    | some left, some right => some (left, right)
    | _, _ => none
  | _ => none

end SemanticLayer
