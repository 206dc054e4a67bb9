import SemanticLayer.Resolution.Pipeline
import SemanticLayer.Proofs.SelectList

/-!
# SemanticLayer.Proofs.Base

The base schema: one dimension for each member, read from the column that the base query puts the
member out under.

* `outline_applyOverrides`: overrides change expressions and types and nothing else.
* `preparedBase_ok`: the parts of a base schema that later phases rely on, whatever the overrides.
* `orderColumn_eq_find?`: the column that the row id takes for an ordered member.
* `headings_wrapperSchema`: a schema over compiled SQL keeps the headings of its source.
-/

namespace SemanticLayer

/-! ## Overrides -/

/-- The schema without the expressions and types of its fields. -/
def TableSchema.outline (s : TableSchema) : TableSchema :=
  { s with
    dimensions := s.dimensions.map fun d => { d with sql := "", type := .string }
    measures := s.measures.map fun m => { m with sql := "", type := .string } }

theorem TableSchema.headings_outline (s : TableSchema) : s.outline.headings = s.headings := by
  simp [headings, outline, Dimension.heading, Function.comp_def]

theorem SqlOverride.outline_apply {s t : TableSchema} {o : SqlOverride}
    (h : o.apply s = .ok t) : t.outline = s.outline := by
  simp only [SqlOverride.apply] at h
  split at h
  · cases h
    simp only [TableSchema.outline, List.map_map, TableSchema.mk.injEq, true_and, and_true]
    constructor
    · apply List.map_congr_left
      intro m _
      simp only [Function.comp_apply, onMeasure]
      split <;> rfl
    · apply List.map_congr_left
      intro d _
      simp only [Function.comp_apply, onDimension]
      split <;> rfl
  · cases h

theorem applyOverrides_cons_ok {s t : TableSchema} {o : SqlOverride} {rest : List SqlOverride} :
    applyOverrides s (o :: rest) = .ok t ↔
      ∃ next, o.apply s = .ok next ∧ applyOverrides next rest = .ok t := by
  rw [applyOverrides, List.foldlM_cons, bind_eq_ok]
  rfl

theorem outline_applyOverrides {overrides : List SqlOverride} {s t : TableSchema}
    (h : applyOverrides s overrides = .ok t) : t.outline = s.outline := by
  induction overrides generalizing s with
  | nil =>
    cases h
    rfl
  | cons o rest ih =>
    obtain ⟨next, hnext, h⟩ := applyOverrides_cons_ok.1 h
    rw [ih h, SqlOverride.outline_apply hnext]

namespace Resolution

/-! ## The base schema -/

theorem columnOf_baseName (c : String) :
    columnOf baseName c = "__base_query." ++ quoteIdentifier c := by
  have hdot : baseName ++ "." = "__base_query." := by decide
  rw [columnOf, hdot]

/-- The column that the base query puts a member out under. -/
def baseColumn (style : KeyStyle) (schemas : List TableSchema) (member : String) : String :=
  style.columnName member ((findField schemas member).bind (·.alias))

def baseHeading (style : KeyStyle) (schemas : List TableSchema) (member : String) : Heading :=
  ⟨Member.safeKey member, some (baseColumn style schemas member)⟩

theorem baseDimension_ok {style : KeyStyle} {schemas : List TableSchema} {member : String}
    {d : Dimension} (h : baseDimension style schemas member = .ok d) :
    ∃ field, findField schemas member = some field ∧
      d = { name := Member.safeKey member
            sql := columnOf baseName (baseColumn style schemas member)
            type := field.type
            «alias» := some (baseColumn style schemas member) } := by
  simp only [baseDimension] at h
  cases hf : findField schemas member with
  | none => simp [hf] at h
  | some field =>
    simp only [hf] at h
    cases h
    exact ⟨field, rfl, by simp [baseColumn, hf]⟩

theorem baseJoin_sql (style : KeyStyle) (schemas : List TableSchema) (c : ColumnConfig) :
    (baseJoin style schemas c).sql =
      columnOf baseName (baseColumn style schemas c.name) ++ " = " ++ c.safeName ++ "."
        ++ c.joinColumn := rfl

/-- What a base schema is known to hold. -/
structure IsBase (style : KeyStyle) (baseSql : String) (schemas : List TableSchema)
    (configs : List ColumnConfig) (members : List String) (base : TableSchema) : Prop where
  name : base.name = baseName
  sql : base.sql = baseSql
  measures : base.measures = []
  joins : base.joins = configs.map (baseJoin style schemas)
  found : ∀ m ∈ members, (findField schemas m).isSome
  headings : base.headings = members.map (baseHeading style schemas) ++ [.plain rowIdName]

theorem headings_baseSchema {style : KeyStyle} {schemas : List TableSchema}
    {members : List String} {dimensions : List Dimension}
    (h : members.mapM (baseDimension style schemas) = .ok dimensions) :
    dimensions.map (·.heading) = members.map (baseHeading style schemas) := by
  apply map_of_mapM_ok h
  intro m _ d hd
  obtain ⟨field, _, rfl⟩ := baseDimension_ok hd
  rfl

theorem preparedBase_ok {style : KeyStyle} {baseSql : String} {request : Request}
    {config : ResolutionConfig} {members : List String} {base : TableSchema}
    (h : preparedBase style baseSql request config members = .ok base) :
    IsBase style baseSql request.tableSchemas config.columnConfigs members base := by
  rw [preparedBase] at h
  obtain ⟨plain, hplain, h⟩ := bind_eq_ok.1 h
  obtain ⟨overridden, hover, h⟩ := bind_eq_ok.1 h
  cases h
  rw [baseSchema] at hplain
  obtain ⟨dimensions, hdims, hplain⟩ := bind_eq_ok.1 hplain
  cases hplain
  have houtline := outline_applyOverrides hover
  have hheadings : overridden.headings = members.map (baseHeading style request.tableSchemas) := by
    rw [← overridden.headings_outline, houtline, TableSchema.headings_outline]
    exact headings_baseSchema hdims
  have hname := congrArg TableSchema.name houtline
  have hsql := congrArg TableSchema.sql houtline
  have hjoins := congrArg TableSchema.joins houtline
  have hmeasures := congrArg TableSchema.measures houtline
  simp only [TableSchema.outline, List.map_nil, List.map_eq_nil_iff] at hname hsql hjoins hmeasures
  refine ⟨hname, hsql, hmeasures, hjoins, ?_, ?_⟩
  · intro m hm
    obtain ⟨d, _, hd⟩ := exists_of_mapM_ok hdims hm
    obtain ⟨field, hf, _⟩ := baseDimension_ok hd
    simp [hf]
  · rw [← hheadings]
    simp [TableSchema.headings, withRowId, TableSchema.withDimension, rowIdDimension,
      Dimension.heading, Heading.plain]

theorem IsBase.aliased {style : KeyStyle} {baseSql : String} {schemas : List TableSchema}
    {configs : List ColumnConfig} {members : List String} {base : TableSchema}
    (h : IsBase style baseSql schemas configs members base) : Heading.Aliased base.headings := by
  rw [h.headings]
  intro x hx
  rcases List.mem_append.1 hx with hx | hx
  · obtain ⟨p, _, rfl⟩ := List.mem_map.1 hx
    rfl
  · rw [List.mem_singleton.1 hx]
    rfl

theorem IsBase.fullyAliased {style : KeyStyle} {baseSql : String} {schemas : List TableSchema}
    {configs : List ColumnConfig} {members : List String} {base : TableSchema}
    (h : IsBase style baseSql schemas configs members base) : base.FullyAliased :=
  TableSchema.fullyAliased_of_no_measures h.measures h.aliased

/-- Members with safe keys of their own have headings of their own. -/
theorem IsBase.consistent {style : KeyStyle} {baseSql : String} {schemas : List TableSchema}
    {configs : List ColumnConfig} {members : List String} {base : TableSchema}
    (h : IsBase style baseSql schemas configs members base)
    (hkeys : ∀ p ∈ members, ∀ q ∈ members, Member.safeKey p = Member.safeKey q → p = q)
    (hrow : ∀ p ∈ members, Member.safeKey p ≠ rowIdName) : Heading.Consistent base.headings := by
  rw [h.headings]
  apply Heading.Consistent.append_plain
  · intro x hx y hy hname
    obtain ⟨p, hp, rfl⟩ := List.mem_map.1 hx
    obtain ⟨q, hq, rfl⟩ := List.mem_map.1 hy
    rw [hkeys q hq p hp hname]
  · intro x hx
    obtain ⟨p, hp, rfl⟩ := List.mem_map.1 hx
    exact hrow p hp

/-- The column of the first member with the given safe key. Without such a member the key is taken
for the column. -/
def columnOfKey (style : KeyStyle) (schemas : List TableSchema) (members : List String)
    (key : String) : String :=
  ((members.find? fun m => Member.safeKey m = key).map (baseColumn style schemas)).getD key

/-- The row id comes after all members and has its own name for an alias. -/
theorem alias_find?_baseHeadings (style : KeyStyle) (schemas : List TableSchema)
    (members : List String) (key : String) :
    (((members.map (baseHeading style schemas) ++ [Heading.plain rowIdName]).find?
      (·.name = key)).bind (·.alias)).getD key = columnOfKey style schemas members key := by
  have hmembers : (members.map (baseHeading style schemas)).find? (·.name = key) =
      (members.find? fun m => Member.safeKey m = key).map (baseHeading style schemas) := by
    rw [List.find?_map]
    rfl
  rw [columnOfKey, List.find?_append, hmembers]
  cases members.find? fun m => Member.safeKey m = key with
  | some m => rfl
  | none =>
    by_cases hrow : rowIdName = key
    · simp [Heading.plain, hrow]
    · simp [Heading.plain, hrow]

/-! ## The row order -/

/-- What a member is ordered by depends on the headings alone. -/
theorem orderColumn_eq_headings (dimensions : List Dimension) (member : String) :
    orderColumn dimensions member =
      (((dimensions.map (·.heading)).find? fun x => x.name = Member.safeKey member ∨
        x.alias = some (Member.safeKey member)).map (·.column)).getD (Member.safeKey member) := by
  rw [orderColumn, List.find?_map]
  simp only [Function.comp_def, Dimension.heading]
  cases dimensions.find? fun d =>
    d.name = Member.safeKey member ∨ d.alias = some (Member.safeKey member) <;> rfl

/-- The column of an ordered member is that of the first member which has its safe key, be it for a
safe key or for a column. Without such a member it is the safe key. -/
theorem orderColumn_eq_find? {style : KeyStyle} {schemas : List TableSchema}
    {members : List String} {dimensions : List Dimension}
    (h : members.mapM (baseDimension style schemas) = .ok dimensions) (member : String) :
    orderColumn dimensions member =
      ((members.find? fun m => Member.safeKey m = Member.safeKey member ∨
        baseColumn style schemas m = Member.safeKey member).map
          (baseColumn style schemas)).getD (Member.safeKey member) := by
  rw [orderColumn_eq_headings, headings_baseSchema h, List.find?_map, Option.map_map]
  simp only [Function.comp_def, baseHeading, Heading.column, Option.some.injEq, Option.getD_some]

/-! ## Schemas over compiled SQL -/

theorem headings_wrapperSchema (sql : String) (s : TableSchema) :
    (wrapperSchema sql s).headings = s.headings ++ s.measureHeadings := by
  simp [wrapperSchema, TableSchema.headings, TableSchema.measureHeadings, Dimension.heading,
    Measure.heading, Function.comp_def]

theorem headings_wrapperSchema_of_no_measures {s : TableSchema} (h : s.measures = [])
    (sql : String) : (wrapperSchema sql s).headings = s.headings := by
  rw [headings_wrapperSchema, TableSchema.measureHeadings, h, List.map_nil, List.append_nil]

/-- A passed-through dimension reads the column of its own heading. -/
theorem sql_of_mem_wrapperSchema {sql : String} {s : TableSchema} {d : Dimension}
    (h : d ∈ (wrapperSchema sql s).dimensions) : d.sql = columnOf s.name d.heading.column := by
  simp only [wrapperSchema, List.mem_append, List.mem_map] at h
  rcases h with ⟨_, _, rfl⟩ | ⟨_, _, rfl⟩ <;> rfl

theorem headings_flattened (config : ResolutionConfig) (s : TableSchema) :
    (flattened config s).headings = s.headings := by
  simp only [flattened, flagArrays, TableSchema.headings, List.map_map]
  apply List.map_congr_left
  intro d _
  simp only [Function.comp_apply, flatten]
  split <;> split <;> rfl

end Resolution
end SemanticLayer
