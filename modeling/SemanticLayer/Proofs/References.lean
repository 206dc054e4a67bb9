import SemanticLayer.Resolution.Phase
import SemanticLayer.Proofs.Text

/-!
# SemanticLayer.Proofs.References

The columns of a table that an SQL text refers to.

`references` reads a text from left to right and lists the quoted identifiers that stand behind the
name of the table and a dot. It knows nothing of how the text was made. The lemmas say what it finds
in the expressions of a base schema: `references_columnOf` in a column, `references_flattenSql` in
an unnested one, and `references_rowNumberSql` in the row id.
-/

namespace SemanticLayer

/-! ## Reading a text -/

/-- Where the reader stands. Texts are kept with their last character in front. -/
inductive Place where
  /-- Outside of identifiers, behind the text `seen`. -/
  | outside (seen : List Char)
  /-- In a quoted identifier. -/
  | inside (isReference : Bool) (name : List Char)
  /-- Behind a quote in an identifier, which ends it unless it is followed by another one. -/
  | closing (isReference : Bool) (name : List Char)

/-- What an identifier adds to the references. -/
def foundReference (isReference : Bool) (name : List Char) : List String :=
  if isReference then [String.ofList name.reverse] else []

def referencesFrom (table : List Char) : Place → List Char → List String
  | .outside _, [] => []
  | .outside seen, c :: rest =>
    if c = '"' then
      referencesFrom table (.inside ((table ++ ['.']).reverse.isPrefixOf seen) []) rest
    else referencesFrom table (.outside (c :: seen)) rest
  | .inside _ _, [] => []
  | .inside isReference name, c :: rest =>
    if c = '"' then referencesFrom table (.closing isReference name) rest
    else referencesFrom table (.inside isReference (c :: name)) rest
  | .closing isReference name, [] => foundReference isReference name
  | .closing isReference name, c :: rest =>
    if c = '"' then referencesFrom table (.inside isReference ('"' :: name)) rest
    else foundReference isReference name ++ referencesFrom table (.outside [c]) rest

/-- The columns of a table that a text refers to, in their order. -/
def references (table sql : String) : List String :=
  referencesFrom table.toList (.outside []) sql.toList

/-! ## Pieces of a text -/

theorem referencesFrom_plain {table text : List Char} (h : '"' ∉ text) (seen rest : List Char) :
    referencesFrom table (.outside seen) (text ++ rest) =
      referencesFrom table (.outside (text.reverse ++ seen)) rest := by
  induction text generalizing seen with
  | nil => rfl
  | cons c text ih =>
    have hc : c ≠ '"' := fun he => h (he ▸ List.mem_cons_self)
    have htext : '"' ∉ text := fun he => h (List.mem_cons_of_mem _ he)
    rw [List.cons_append, referencesFrom, if_neg hc, ih htext]
    simp

theorem referencesFrom_inside (table name acc rest : List Char) (isReference : Bool) :
    referencesFrom table (.inside isReference acc)
        (Text.expand '"' ['"', '"'] name ++ '"' :: rest) =
      referencesFrom table (.closing isReference (name.reverse ++ acc)) rest := by
  induction name generalizing acc with
  | nil => simp [Text.expand, referencesFrom]
  | cons c name ih =>
    by_cases hc : c = '"'
    · simp [Text.expand, hc, referencesFrom, ih]
    · simp [Text.expand, hc, referencesFrom, ih]

theorem referencesFrom_closing {rest : List Char} (h : rest.head? ≠ some '"')
    (table name : List Char) (isReference : Bool) :
    referencesFrom table (.closing isReference name) rest =
      foundReference isReference name ++ referencesFrom table (.outside []) rest := by
  cases rest with
  | nil => simp [referencesFrom]
  | cons c rest =>
    have hc : c ≠ '"' := fun he => h (congrArg some he)
    simp [referencesFrom, hc]

/-- A column of the table is found, and nothing that stands before it matters afterwards. -/
theorem referencesFrom_columnOf {table : String} (htable : '"' ∉ table.toList) (column : String)
    (seen : List Char) {rest : List Char} (hrest : rest.head? ≠ some '"') :
    referencesFrom table.toList (.outside seen) ((columnOf table column).toList ++ rest) =
      column :: referencesFrom table.toList (.outside []) rest := by
  have htext : (columnOf table column).toList ++ rest =
      (table.toList ++ ['.']) ++
        ('"' :: (Text.expand '"' ['"', '"'] column.toList ++ '"' :: rest)) := by
    simp [columnOf, quoteIdentifier, Text.quoteWith]
  have hplain : '"' ∉ table.toList ++ ['.'] := by simpa using htable
  have hbefore : (table.toList ++ ['.']).reverse.isPrefixOf
      ((table.toList ++ ['.']).reverse ++ seen) = true := by simp
  rw [htext, referencesFrom_plain hplain, referencesFrom, if_pos rfl, hbefore,
    referencesFrom_inside, referencesFrom_closing hrest]
  simp [foundReference]

theorem references_columnOf {table : String} (htable : '"' ∉ table.toList) (column : String) :
    references table (columnOf table column) = [column] := by
  have hend : ([] : List Char).head? ≠ some '"' := by simp
  have h := referencesFrom_columnOf htable column [] hend
  rw [List.append_nil] at h
  exact h

theorem referencesFrom_of_plain {table text : List Char} (h : '"' ∉ text) (seen : List Char) :
    referencesFrom table (.outside seen) text = [] := by
  rw [← List.append_nil text, referencesFrom_plain h]
  rfl

theorem head?_append_ne_quote {text : List Char} (hne : text ≠ []) (h : '"' ∉ text)
    (rest : List Char) : (text ++ rest).head? ≠ some '"' := by
  cases text with
  | nil => exact absurd rfl hne
  | cons c text =>
    intro he
    exact h (Option.some.inj he ▸ List.mem_cons_self)

/-- A column and the plain text behind it. -/
theorem referencesFrom_columnOf_plain {table : String} (htable : '"' ∉ table.toList)
    (column : String) {text : List Char} (hne : text ≠ []) (htext : '"' ∉ text)
    (seen rest : List Char) :
    referencesFrom table.toList (.outside seen)
        ((columnOf table column).toList ++ (text ++ rest)) =
      column :: referencesFrom table.toList (.outside text.reverse) rest := by
  rw [referencesFrom_columnOf htable column seen (head?_append_ne_quote hne htext rest),
    referencesFrom_plain htext, List.append_nil]

namespace Resolution

/-! ## Expressions of base schemas -/

-- The equation of the definition is given by hand: Lean would run its texts to find it.
theorem flattenSql_eq (expr : String) :
    flattenSql expr = "unnest(CASE WHEN " ++ expr ++ " IS NULL OR len(COALESCE(" ++ expr
      ++ ", [])) = 0 THEN [NULL] ELSE " ++ expr ++ " END)" := rfl

theorem references_flattenSql {table : String} (htable : '"' ∉ table.toList) (column : String) :
    references table (flattenSql (columnOf table column)) = [column, column, column] := by
  have htext : (flattenSql (columnOf table column)).toList =
      "unnest(CASE WHEN ".toList ++ ((columnOf table column).toList ++
        (" IS NULL OR len(COALESCE(".toList ++ ((columnOf table column).toList ++
          (", [])) = 0 THEN [NULL] ELSE ".toList ++ ((columnOf table column).toList ++
            (" END)".toList ++ [])))))) := by
    simp [flattenSql_eq]
  have hcase : '"' ∉ "unnest(CASE WHEN ".toList := by decide
  have hnull : '"' ∉ " IS NULL OR len(COALESCE(".toList := by decide
  have helse : '"' ∉ ", [])) = 0 THEN [NULL] ELSE ".toList := by decide
  have hend : '"' ∉ " END)".toList := by decide
  rw [references, htext, referencesFrom_plain hcase,
    referencesFrom_columnOf_plain htable column (by decide) hnull,
    referencesFrom_columnOf_plain htable column (by decide) helse,
    referencesFrom_columnOf_plain htable column (by decide) hend, referencesFrom]

theorem quote_not_mem_direction (d : SortDirection) : '"' ∉ (" " ++ d.sql).toList := by
  cases d <;> decide

/-- The order keys of a row number refer to their columns. -/
theorem referencesFrom_rowOrderKeys {base : String} (hbase : '"' ∉ base.toList)
    (dimensions : List Dimension) (e : OrderEntry) (order : List OrderEntry) (seen : List Char) :
    referencesFrom base.toList (.outside seen)
        ((", ".intercalate ((e :: order).map (rowOrderKey base dimensions))).toList ++ [')']) =
      (e :: order).map fun e => orderColumn dimensions e.member := by
  have hdirection : (" " ++ e.direction.sql).toList ≠ [] := by simp
  induction order generalizing e seen with
  | nil =>
    have htext : (", ".intercalate ([e].map (rowOrderKey base dimensions))).toList ++ [')'] =
        (columnOf base (orderColumn dimensions e.member)).toList ++
          ((" " ++ e.direction.sql).toList ++ [')']) := by
      simp [rowOrderKey, String.intercalate_singleton]
    rw [htext, referencesFrom_columnOf_plain hbase _ hdirection (quote_not_mem_direction _),
      referencesFrom_of_plain (by decide)]
    rfl
  | cons e' order ih =>
    have htext : (", ".intercalate ((e :: e' :: order).map (rowOrderKey base dimensions))).toList
          ++ [')'] =
        (columnOf base (orderColumn dimensions e.member)).toList ++
          ((" " ++ e.direction.sql).toList ++ (", ".toList ++
            ((", ".intercalate ((e' :: order).map (rowOrderKey base dimensions))).toList
              ++ [')']))) := by
      simp [rowOrderKey, String.intercalate_cons_cons]
    have hcomma : '"' ∉ ", ".toList := by decide
    rw [htext, referencesFrom_columnOf_plain hbase _ hdirection (quote_not_mem_direction _),
      referencesFrom_plain hcomma, ih e' _ (by simp)]
    rfl

theorem references_rowNumberSql {base : String} (hbase : '"' ∉ base.toList)
    (dimensions : List Dimension) (order : List OrderEntry) :
    references base (rowNumberSql order dimensions base) =
      order.map fun e => orderColumn dimensions e.member := by
  cases order with
  | nil =>
    have hplain : '"' ∉ "row_number() OVER ()".toList := by decide
    exact referencesFrom_of_plain hplain []
  | cons e order =>
    have htext : (rowNumberSql (e :: order) dimensions base).toList =
        "row_number() OVER (ORDER BY ".toList ++
          ((", ".intercalate ((e :: order).map (rowOrderKey base dimensions))).toList
            ++ [')']) := by
      simp [rowNumberSql]
    have hplain : '"' ∉ "row_number() OVER (ORDER BY ".toList := by decide
    rw [references, htext, referencesFrom_plain hplain, referencesFrom_rowOrderKeys hbase]

end Resolution
end SemanticLayer
