import SemanticLayer.Proofs.Declaration
import SemanticLayer.Proofs.GraphBuild
import SemanticLayer.Proofs.Lookups

/-!
# SemanticLayer.Proofs.LookupJoins

The joins of the base table with its lookup tables. The base schema declares each join as a text,
the join graph reads the texts back, and the join paths look the edges up by the column that the
base schema lists. `edgeOf_baseJoin` says that the text is read as it was meant, and
`edgeOf_baseJoin_ok` what is known of the edge whenever the text can be read.
-/

namespace SemanticLayer
namespace Resolution

/-- A name of letters, digits, underscores and other word characters. -/
def IsPlain (name : String) : Prop := name ≠ "" ∧ name.toList.all Text.isWord = true

instance (name : String) : Decidable (IsPlain name) := inferInstanceAs (Decidable (_ ∧ _))

theorem IsPlain.bare {name : String} (h : IsPlain name) : JoinSide.Bare name.toList :=
  .of_isWord (List.all_eq_true.1 h.2)

theorem IsPlain.equals_not_mem {name : String} (h : IsPlain name) : '=' ∉ name.toList :=
  fun hmem => Text.ne_of_isWord (List.all_eq_true.1 h.2 _ hmem) (by decide +kernel) rfl

theorem isPlain_baseName : IsPlain baseName := by decide +kernel

/-! ## The declared texts -/

/-- The left side of the declaration for a column of the base query. -/
def baseSide (column : String) : List Char :=
  [] ++ (baseName.toList ++ '.' :: Text.quoteWith '"' column.toList) ++ [' ']

/-- The right side of the declaration for a lookup table. -/
def lookupSide (c : ColumnConfig) : List Char :=
  [' '] ++ (c.safeName.toList ++ '.' :: c.joinColumn.toList)

theorem toList_baseJoin (style : KeyStyle) (schemas : List TableSchema) (c : ColumnConfig) :
    (baseJoin style schemas c).sql.toList =
      baseSide (baseColumn style schemas c.name) ++ '=' :: lookupSide c := by
  rw [baseJoin_sql]
  simp [baseSide, lookupSide, columnOf, quoteIdentifier]

/-- A column config whose join can be declared: its names are plain, and the column of the base
query has a name without an equals sign. -/
structure Joinable (style : KeyStyle) (schemas : List TableSchema) (c : ColumnConfig) : Prop where
  name : IsPlain c.safeName
  ne_base : c.safeName ≠ baseName
  joinColumn : IsPlain c.joinColumn
  column_ne : baseColumn style schemas c.name ≠ ""
  column_equals : '=' ∉ (baseColumn style schemas c.name).toList

instance (style : KeyStyle) (schemas : List TableSchema) (c : ColumnConfig) :
    Decidable (Joinable style schemas c) :=
  decidable_of_iff (IsPlain c.safeName ∧ c.safeName ≠ baseName ∧ IsPlain c.joinColumn ∧
      baseColumn style schemas c.name ≠ "" ∧ '=' ∉ (baseColumn style schemas c.name).toList)
    ⟨fun ⟨name, ne_base, joinColumn, column_ne, column_equals⟩ =>
      ⟨name, ne_base, joinColumn, column_ne, column_equals⟩,
     fun h => ⟨h.name, h.ne_base, h.joinColumn, h.column_ne, h.column_equals⟩⟩

/-- The edge from the base table to the lookup table of a column. -/
def baseEdge (style : KeyStyle) (schemas : List TableSchema) (c : ColumnConfig) : JoinEdge where
  source := baseName
  target := c.safeName
  column := baseColumn style schemas c.name
  condition := (baseJoin style schemas c).sql

theorem writtenAs_baseSide (column : String) :
    JoinSide.WrittenAs ⟨baseName, column⟩ (baseSide column) :=
  .mk (by simp) (.bare isPlain_baseName.bare) .quoted (List.all_eq_true.1 rfl)

theorem writtenAs_lookupSide {c : ColumnConfig} (hname : IsPlain c.safeName)
    (hcolumn : IsPlain c.joinColumn) :
    JoinSide.WrittenAs ⟨c.safeName, c.joinColumn⟩ (lookupSide c) := by
  rw [lookupSide, ← List.append_nil ([' '] ++ _)]
  exact .mk (List.all_eq_true.1 rfl) (.bare hname.bare) (.bare hcolumn.bare) (by simp)

theorem parse_baseSide {column : String} (h : column ≠ "") :
    JoinSide.parse (baseSide column) = some ⟨baseName, column⟩ :=
  JoinSide.parse_written (writtenAs_baseSide column) isPlain_baseName.1 h

theorem edgeOf_baseJoin {style : KeyStyle} {schemas : List TableSchema} {c : ColumnConfig}
    (h : Joinable style schemas c) :
    JoinGraph.edgeOf baseName (baseJoin style schemas c).sql =
      .ok (baseEdge style schemas c) := by
  have hleft := writtenAs_baseSide (baseColumn style schemas c.name)
  have hright := writtenAs_lookupSide h.name h.joinColumn
  have hparse := parseJoin_of_sides (toList_baseJoin style schemas c)
    (hleft.equals_not_mem isPlain_baseName.equals_not_mem h.column_equals)
    (hright.equals_not_mem h.name.equals_not_mem h.joinColumn.equals_not_mem)
    (parse_baseSide h.column_ne) (JoinSide.parse_written hright h.name.1 h.joinColumn.1)
  simp [JoinGraph.edgeOf, hparse, Ne.symm h.ne_base, baseEdge]

/-! ## Reading them back -/

theorem parse_baseSide_ok {column : String} {side : JoinSide}
    (h : JoinSide.parse (baseSide column) = some side) : side = ⟨baseName, column⟩ := by
  by_cases hcolumn : column = ""
  · rw [hcolumn, show JoinSide.parse (baseSide "") = none by decide +kernel] at h
    cases h
  · rw [parse_baseSide hcolumn] at h
    cases h
    rfl

/-- The table that the declared join of a column ends at, which is read from its text. -/
def joinedTable? (c : ColumnConfig) : Option String := (JoinSide.parse (lookupSide c)).map (·.table)

theorem joinedTable?_keyed (c : ColumnConfig) : joinedTable? c.keyed = joinedTable? c := by
  rw [joinedTable?, joinedTable?, lookupSide, lookupSide, c.safeName_keyed]
  rfl

theorem edgeOf_baseJoin_ok {style : KeyStyle} {schemas : List TableSchema} {c : ColumnConfig}
    {e : JoinEdge} (h : JoinGraph.edgeOf baseName (baseJoin style schemas c).sql = .ok e) :
    joinedTable? c = some e.target ∧ e.column = baseColumn style schemas c.name := by
  rw [JoinGraph.edgeOf] at h
  split at h
  · cases h
  · rename_i left right hparse
    obtain ⟨hleft, hright⟩ := parseJoin_eq_some (toList_baseJoin style schemas c) hparse
    rw [parse_baseSide_ok hleft] at h
    split at h
    · cases h
    · rw [if_pos rfl] at h
      cases h
      exact ⟨by rw [joinedTable?, hright]; rfl, rfl⟩

/-- Whatever stands in the rest of the text, a bare name is read back. -/
theorem target_of_edgeOf {style : KeyStyle} {schemas : List TableSchema} {c : ColumnConfig}
    {e : JoinEdge} (h : JoinGraph.edgeOf baseName (baseJoin style schemas c).sql = .ok e)
    (hbare : JoinSide.Bare c.safeName.toList) : e.target = c.safeName := by
  obtain ⟨side, hside, htarget⟩ := Option.map_eq_some_iff.1 (edgeOf_baseJoin_ok h).1
  rw [← htarget, JoinSide.table_of_parse (by simp; rfl) hbare hside, String.ofList_toList]

/-- A column under the name of the base table has no declaration that can be read: both of its sides
would name the same table. -/
theorem safeName_ne_of_edgeOf {style : KeyStyle} {schemas : List TableSchema} {c : ColumnConfig}
    {e : JoinEdge} (h : JoinGraph.edgeOf baseName (baseJoin style schemas c).sql = .ok e) :
    c.safeName ≠ baseName := by
  intro hname
  have htarget := target_of_edgeOf h (hname ▸ isPlain_baseName.bare)
  obtain ⟨hsource, hne⟩ := JoinGraph.edgeOf_ok h
  exact hne (hsource.trans (htarget.trans hname).symm)

theorem safeName_ne_empty_of_edgeOf {style : KeyStyle} {schemas : List TableSchema}
    {c : ColumnConfig} {e : JoinEdge}
    (h : JoinGraph.edgeOf baseName (baseJoin style schemas c).sql = .ok e) : c.safeName ≠ "" := by
  intro hname
  have htarget := target_of_edgeOf h (hname ▸ .nil)
  obtain ⟨side, hside, hread⟩ := Option.map_eq_some_iff.1 (edgeOf_baseJoin_ok h).1
  exact JoinSide.table_ne_of_parse hside (hread.trans (htarget.trans hname))

end Resolution
end SemanticLayer
