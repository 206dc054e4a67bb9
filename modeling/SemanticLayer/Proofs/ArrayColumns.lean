import SemanticLayer.Proofs.PhaseColumns

/-!
# SemanticLayer.Proofs.ArrayColumns

The columns of array resolution, followed through a whole run.

An `OutputColumn` is what a projection ends up in: itself, or a column of its lookup table. As long
as the names of the columns are apart, the schemas of a run list the output columns in their order
(`ArrayRun.headings_resolved`, `ArrayRun.headings_aggregated`), whatever compiler is called. With
the SQL compiler, `phases_read_selected_columns` says that every schema reads exactly the columns
that the statement before it selects.
-/

namespace SemanticLayer
namespace Resolution

open Compiler (Answered)

/-! ## Output columns -/

inductive OutputColumn where
  /-- A projection that is not resolved. -/
  | projected (member : String)
  /-- A column of the lookup table that takes the place of a projection. -/
  | lookedUp (config : ColumnConfig) (column : String)
deriving DecidableEq, Repr

def OutputColumn.name : OutputColumn → String
  | projected member => Member.safeKey member
  | lookedUp c column => c.resolvedName column

/-- The heading of an output column in the schemas of array resolution. -/
def OutputColumn.heading (style : KeyStyle) (schemas : List TableSchema) : OutputColumn → Heading
  | projected member => baseHeading style schemas member
  | lookedUp c column => .plain (c.resolvedName column)

/-- The column that an output column is read from in the schemas of array resolution. -/
def OutputColumn.column (style : KeyStyle) (schemas : List TableSchema) : OutputColumn → String
  | projected member => baseColumn style schemas member
  | lookedUp c column => c.resolvedName column

theorem OutputColumn.column_heading (style : KeyStyle) (schemas : List TableSchema)
    (x : OutputColumn) : (x.heading style schemas).column = x.column style schemas := by
  cases x <;> rfl

theorem OutputColumn.name_heading (style : KeyStyle) (schemas : List TableSchema)
    (x : OutputColumn) : (x.heading style schemas).name = x.name := by
  cases x <;> rfl

theorem OutputColumn.alias_heading (style : KeyStyle) (schemas : List TableSchema)
    (x : OutputColumn) :
    (x.heading style schemas).alias = some (x.heading style schemas).column := by
  cases x <;> rfl

/-- The columns that a projection ends up in. -/
def outputColumns (config : ResolutionConfig) (projection : String) : List OutputColumn :=
  match config.columnConfig? projection with
  | some c => c.resolutionColumns.map (.lookedUp c)
  | none => [.projected projection]

/-- No two columns share a name, and none has the name of the row id. -/
structure NamesApart (schemas : List TableSchema) (config : ResolutionConfig)
    (projections : List String) : Prop where
  configs : (config.columnConfigs.map (·.safeName)).Nodup
  keys : ∀ p ∈ projections, ∀ q ∈ projections,
    Member.safeKey p = Member.safeKey q → p = q
  columns : ∀ x ∈ projections.flatMap (outputColumns config),
    ∀ y ∈ projections.flatMap (outputColumns config), x.name = y.name → x = y
  name_ne : ∀ x ∈ projections.flatMap (outputColumns config), x.name ≠ rowIdName
  alias_ne : ∀ p ∈ projections, (findField schemas p).bind (·.alias) ≠ some rowIdName

/-- A resolved name is longer than the safe name that it starts with. -/
theorem resolvedName_ne_safeName (c : ColumnConfig) (column : String) :
    c.resolvedName column ≠ c.safeName := by
  intro h
  have hlength := congrArg (·.toList.length) h
  simp [ColumnConfig.resolvedName_eq] at hlength

theorem outputColumns_of_none {config : ResolutionConfig} {projection : String}
    (h : config.columnConfig? projection = none) :
    outputColumns config projection = [.projected projection] := by
  simp [outputColumns, h]

theorem outputColumns_of_some {config : ResolutionConfig} {projection : String} {c : ColumnConfig}
    (h : config.columnConfig? projection = some c) :
    outputColumns config projection = c.resolutionColumns.map (.lookedUp c) := by
  simp [outputColumns, h]

/-- The key of a resolved projection leads to the columns of its lookup table. -/
theorem keyHeadings_safeKeyed_of_some {config : ResolutionConfig} {p : String} {c : ColumnConfig}
    (h : config.columnConfig? p = some c) (hs : List Heading) :
    keyHeadings hs config.safeKeyed (Member.safeKey p) =
      c.resolutionColumns.map fun column => .plain (c.resolvedName column) := by
  have hkeyed := config.columnConfig?_safeKeyed (Member.safeKey p)
  rw [config.columnConfig?_safeKey, h] at hkeyed
  rw [keyHeadings_of_some hkeyed, lookupHeadings]
  simp only [ColumnConfig.resolvedName_keyed]
  rfl

/-- The key of any other projection leads to the first heading with this name. -/
theorem keyHeadings_safeKeyed_of_none {config : ResolutionConfig} {p : String}
    (h : config.columnConfig? p = none) (hs : List Heading) :
    keyHeadings hs config.safeKeyed (Member.safeKey p) =
      (hs.find? (·.name = Member.safeKey p)).toList := by
  have hkeyed := config.columnConfig?_safeKeyed (Member.safeKey p)
  rw [config.columnConfig?_safeKey, h] at hkeyed
  exact keyHeadings_of_none hkeyed

/-- In a schema with the base headings, the key of a projection leads to its output columns. -/
theorem keyHeadings_projection {style : KeyStyle} {schemas : List TableSchema} {hs : List Heading}
    {config : ResolutionConfig} {p : String} (hc : Heading.Consistent hs)
    (hp : baseHeading style schemas p ∈ hs) :
    keyHeadings hs config.safeKeyed (Member.safeKey p) =
      (outputColumns config p).map (·.heading style schemas) := by
  cases h : config.columnConfig? p with
  | none =>
    have hfind : hs.find? (·.name = Member.safeKey p) = some (baseHeading style schemas p) :=
      hc.find? hp
    rw [keyHeadings_safeKeyed_of_none h, hfind, outputColumns_of_none h]
    rfl
  | some c =>
    rw [keyHeadings_safeKeyed_of_some h, outputColumns_of_some h, List.map_map]
    rfl

theorem exists_outputColumn {hs : List Heading} {config : ResolutionConfig} {p : String}
    {x : Heading} (h : x ∈ keyHeadings hs config.safeKeyed (Member.safeKey p)) :
    ∃ y ∈ outputColumns config p, y.name = x.name := by
  cases hc : config.columnConfig? p with
  | none =>
    rw [keyHeadings_safeKeyed_of_none hc, Option.mem_toList] at h
    have hname : x.name = Member.safeKey p := by simpa using List.find?_some h
    exact ⟨.projected p, by simp [outputColumns_of_none hc], hname.symm⟩
  | some c =>
    rw [keyHeadings_safeKeyed_of_some hc] at h
    obtain ⟨column, hcolumn, rfl⟩ := List.mem_map.1 h
    refine ⟨.lookedUp c column, ?_, rfl⟩
    rw [outputColumns_of_some hc]
    exact List.mem_map_of_mem hcolumn

/-! ## The row id -/

section RowId

variable {config : ResolutionConfig} {projections : List String}
  (name_ne : ∀ x ∈ projections.flatMap (outputColumns config), x.name ≠ rowIdName)

include name_ne

/-- A column with the name of the row id is the row id itself, which is then not resolved. -/
theorem columnConfig?_rowId_of_name {x : OutputColumn}
    (hx : x ∈ (projections ++ [rowIdName]).flatMap (outputColumns config))
    (hname : x.name = rowIdName) : config.columnConfig? rowIdName = none := by
  cases hc : config.columnConfig? rowIdName with
  | none => rfl
  | some c =>
    exfalso
    obtain ⟨p, hp, hx⟩ := List.mem_flatMap.1 hx
    rcases List.mem_append.1 hp with hp | hp
    · exact name_ne x (List.mem_flatMap.2 ⟨p, hp, hx⟩) hname
    · rw [List.mem_singleton.1 hp, outputColumns_of_some hc] at hx
      obtain ⟨column, _, rfl⟩ := List.mem_map.1 hx
      have hsafe := (ResolutionConfig.columnConfig?_eq_some hc).2
      rw [safeKey_rowIdName] at hsafe
      exact resolvedName_ne_safeName c column (hname.trans hsafe.symm)

theorem safeKey_ne_rowIdName (hrow : config.columnConfig? rowIdName = none) {p : String}
    (hp : p ∈ projections) : Member.safeKey p ≠ rowIdName := by
  intro hkey
  have hnone : config.columnConfig? p = none := by
    rw [← config.columnConfig?_safeKey p, hkey]
    exact hrow
  have hmem : OutputColumn.projected p ∈ outputColumns config p := by
    rw [outputColumns_of_none hnone]
    exact List.mem_singleton_self _
  exact name_ne _ (List.mem_flatMap.2 ⟨p, hp, hmem⟩) hkey

end RowId

/-! ## Runs of any compiler -/

namespace ArrayRun

variable {σ : Type} {compiler : Compiler σ} {style : KeyStyle} {request : Request}
  {baseSql sql : String} {config : ResolutionConfig} {s t : σ}

theorem isBase (run : ArrayRun compiler style request baseSql config s sql t) :
    IsBase style baseSql request.tableSchemas config.columnConfigs request.projections run.base :=
  preparedBase_ok run.prepares

/-- Unnesting hands the base schema on over other SQL. -/
theorem exists_unnested (run : ArrayRun compiler style request baseSql config s sql t) :
    ∃ sql, run.unnested = wrapperSchema sql run.base := by
  obtain ⟨sql, -, h⟩ := unnest_ok run.unnests
  exact ⟨sql, h⟩

theorem name_unnested (run : ArrayRun compiler style request baseSql config s sql t) :
    run.unnested.name = baseName := by
  obtain ⟨_, h⟩ := run.exists_unnested
  rw [h]
  exact run.isBase.name

theorem measures_unnested (run : ArrayRun compiler style request baseSql config s sql t) :
    run.unnested.measures = [] := by
  obtain ⟨_, h⟩ := run.exists_unnested
  rw [h]
  rfl

theorem measures_aggregated (run : ArrayRun compiler style request baseSql config s sql t) :
    run.aggregated.measures = [] := by
  obtain ⟨_, _, -, -, h⟩ := aggregate_ok run.aggregates
  rw [h]
  rfl

theorem headings_unnested (run : ArrayRun compiler style request baseSql config s sql t) :
    run.unnested.headings = run.base.headings := by
  obtain ⟨_, h⟩ := run.exists_unnested
  rw [h, headings_wrapperSchema_of_no_measures run.isBase.measures]

theorem joins_unnested (run : ArrayRun compiler style request baseSql config s sql t) :
    run.unnested.joins = config.columnConfigs.map (baseJoin style request.tableSchemas) := by
  obtain ⟨_, h⟩ := run.exists_unnested
  rw [h]
  exact run.isBase.joins

/-- The base table is joined over each of the keyed columns. -/
theorem exists_baseJoin (run : ArrayRun compiler style request baseSql config s sql t) :
    ∀ c ∈ config.safeKeyed.columnConfigs, ∃ c', c'.safeName = c.safeName ∧
      baseJoin style request.tableSchemas c' ∈ run.unnested.joins := by
  intro c hc
  obtain ⟨c', hc', rfl⟩ := List.mem_map.1 hc
  refine ⟨c', c'.safeName_keyed.symm, ?_⟩
  rw [run.joins_unnested]
  exact List.mem_map_of_mem hc'

theorem columns_base (run : ArrayRun compiler style request baseSql config s sql t) :
    run.base.headings.map Heading.column =
      request.projections.map (baseColumn style request.tableSchemas) ++ [rowIdName] := by
  rw [run.isBase.headings, List.map_append, List.map_map]
  rfl

theorem reads_unnested (run : ArrayRun compiler style request baseSql config s sql t) :
    Reads run.unnested
      (request.projections.map (baseColumn style request.tableSchemas) ++ [rowIdName]) := by
  obtain ⟨sql, hunnested⟩ := run.exists_unnested
  rw [← run.columns_base, ← run.headings_unnested, hunnested]
  exact (readsHeadings_wrapperSchema run.isBase.name sql).reads

theorem aliased_base (run : ArrayRun compiler style request baseSql config s sql t) :
    Heading.Aliased run.base.headings :=
  run.isBase.aliased

variable (apart : NamesApart request.tableSchemas config request.projections)

include apart

/-- The row id is not resolved: its rows could not be grouped any more. -/
theorem columnConfig?_rowId (run : ArrayRun compiler style request baseSql config s sql t) :
    config.columnConfig? rowIdName = none := by
  obtain ⟨rowId, _, hrow, -, -⟩ := aggregate_ok run.aggregates
  obtain ⟨hmem, hname⟩ := TableSchema.dimension?_eq_some hrow
  have hheading : rowId.heading ∈ run.resolved.headings := List.mem_map_of_mem hmem
  rw [headings_resolve run.measures_unnested (config.nodup_safeKeyed apart.configs) run.resolves]
    at hheading
  obtain ⟨key, hkey, hheading⟩ := List.mem_flatMap.1 hheading
  obtain ⟨p, hp, rfl⟩ := List.mem_map.1 hkey
  obtain ⟨y, hy, hyname⟩ := exists_outputColumn hheading
  exact columnConfig?_rowId_of_name apart.name_ne (List.mem_flatMap.2 ⟨p, hp, hy⟩)
    (hyname.trans hname)

theorem consistent_base (run : ArrayRun compiler style request baseSql config s sql t) :
    Heading.Consistent run.base.headings :=
  run.isBase.consistent apart.keys fun _ =>
    safeKey_ne_rowIdName apart.name_ne (run.columnConfig?_rowId apart)

theorem headings_resolved (run : ArrayRun compiler style request baseSql config s sql t) :
    run.resolved.headings =
      (request.projections.flatMap (outputColumns config)).map
        (·.heading style request.tableSchemas) ++ [.plain rowIdName] := by
  have hconsistent := run.consistent_base apart
  have hrow : keyHeadings run.base.headings config.safeKeyed rowIdName = [.plain rowIdName] := by
    have hkeyed := config.columnConfig?_safeKeyed rowIdName
    rw [run.columnConfig?_rowId apart] at hkeyed
    have hmem : Heading.plain rowIdName ∈ run.base.headings := by
      simp [run.isBase.headings]
    have hfind : run.base.headings.find? (·.name = rowIdName) = some (.plain rowIdName) :=
      hconsistent.find? hmem
    rw [keyHeadings_of_none hkeyed, hfind]
    rfl
  rw [headings_resolve run.measures_unnested (config.nodup_safeKeyed apart.configs) run.resolves,
    run.headings_unnested, List.map_append, List.flatMap_append, List.map_flatMap,
    List.flatMap_map]
  congr 1
  · apply List.flatMap_congr
    intro p hp
    apply keyHeadings_projection hconsistent
    rw [run.isBase.headings]
    exact List.mem_append_left _ (List.mem_map_of_mem hp)
  · simp [hrow]

theorem headings_aggregated (run : ArrayRun compiler style request baseSql config s sql t) :
    run.aggregated.headings =
      (request.projections.flatMap (outputColumns config)).map
        (·.heading style request.tableSchemas) := by
  rw [(headings_aggregate run.aggregates).2, run.headings_resolved apart, List.filter_append]
  have hrow : [Heading.plain rowIdName].filter (·.name ≠ rowIdName) = [] := by
    simp [Heading.plain]
  rw [hrow, List.append_nil, List.filter_eq_self]
  intro x hx
  obtain ⟨y, hy, rfl⟩ := List.mem_map.1 hx
  simpa [OutputColumn.name_heading] using apart.name_ne y hy

theorem consistent_resolved (run : ArrayRun compiler style request baseSql config s sql t) :
    Heading.Consistent run.resolved.headings := by
  rw [run.headings_resolved apart]
  apply Heading.Consistent.append_plain
  · intro x hx y hy hname
    obtain ⟨p, hp, rfl⟩ := List.mem_map.1 hx
    obtain ⟨q, hq, rfl⟩ := List.mem_map.1 hy
    rw [OutputColumn.name_heading, OutputColumn.name_heading] at hname
    rw [apart.columns q hq p hp hname]
  · intro x hx
    obtain ⟨p, hp, rfl⟩ := List.mem_map.1 hx
    rw [OutputColumn.name_heading]
    exact apart.name_ne p hp

theorem aliased_resolved (run : ArrayRun compiler style request baseSql config s sql t) :
    Heading.Aliased run.resolved.headings := by
  rw [run.headings_resolved apart]
  intro x hx
  rcases List.mem_append.1 hx with hx | hx
  · obtain ⟨p, _, rfl⟩ := List.mem_map.1 hx
    exact p.alias_heading style request.tableSchemas
  · rw [List.mem_singleton.1 hx]
    rfl

theorem find?_rowId_resolved (run : ArrayRun compiler style request baseSql config s sql t) :
    run.resolved.headings.find? (·.name = rowIdName) = some (.plain rowIdName) := by
  have hmem : Heading.plain rowIdName ∈ run.resolved.headings := by
    simp [run.headings_resolved apart]
  exact (run.consistent_resolved apart).find? hmem

theorem columns_aggregated (run : ArrayRun compiler style request baseSql config s sql t) :
    run.aggregated.headings.map Heading.column =
      (request.projections.flatMap (outputColumns config)).map
        (·.column style request.tableSchemas) := by
  rw [run.headings_aggregated apart, List.map_map]
  exact List.map_congr_left fun x _ => x.column_heading style request.tableSchemas

theorem columns_resolved (run : ArrayRun compiler style request baseSql config s sql t) :
    run.resolved.headings.map Heading.column =
      (request.projections.flatMap (outputColumns config)).map
        (·.column style request.tableSchemas) ++ [rowIdName] := by
  rw [run.headings_resolved apart, ← run.headings_aggregated apart, List.map_append,
    run.columns_aggregated apart]
  rfl

theorem readsHeadings_resolved (run : ArrayRun compiler style request baseSql config s sql t) :
    run.resolved.name = baseName ∧ ReadsHeadings run.resolved :=
  readsHeadings_resolve run.name_unnested (config.nodup_safeKeyed apart.configs) run.resolves

theorem reads_resolved (run : ArrayRun compiler style request baseSql config s sql t) :
    Reads run.resolved ((request.projections.flatMap (outputColumns config)).map
      (·.column style request.tableSchemas) ++ [rowIdName]) := by
  rw [← run.columns_resolved apart]
  exact (run.readsHeadings_resolved apart).2.reads

theorem reads_aggregated (run : ArrayRun compiler style request baseSql config s sql t) :
    Reads run.aggregated ((request.projections.flatMap (outputColumns config)).map
      (·.column style request.tableSchemas)) := by
  rw [← run.columns_aggregated apart]
  exact (readsHeadings_aggregate (run.readsHeadings_resolved apart).1 run.aggregates).reads

end ArrayRun

/-- No output column is read from a column with the name of the row id. -/
theorem NamesApart.column_ne {schemas : List TableSchema} {config : ResolutionConfig}
    {projections : List String} (apart : NamesApart schemas config projections)
    (style : KeyStyle) {x : OutputColumn} (hx : x ∈ projections.flatMap (outputColumns config)) :
    x.column style schemas ≠ rowIdName := by
  have hname := apart.name_ne x hx
  cases x with
  | lookedUp c column => exact hname
  | projected m =>
    obtain ⟨p, hp, hm⟩ := List.mem_flatMap.1 hx
    have hm : m = p := by
      cases hc : config.columnConfig? p with
      | none => simpa [outputColumns_of_none hc] using hm
      | some c => simp [outputColumns_of_some hc] at hm
    have halias := apart.alias_ne p hp
    rw [← hm] at halias
    simp only [OutputColumn.column, baseColumn, KeyStyle.columnName]
    cases ha : (findField schemas m).bind (·.alias) with
    | some a =>
      rw [ha] at halias
      exact fun he => halias (congrArg some he)
    | none =>
      -- Without an alias the column is the key, which has the name of the row id only if the
      -- safe key has.
      intro he
      cases style with
      | underscore => exact hname he
      | dotted =>
        have hm : m = rowIdName := he
        rw [hm] at hname
        exact hname safeKey_rowIdName

/-! ## Runs of the SQL compiler -/

/-- Every schema that array resolution hands from one phase to the next is laid over the SQL of the
phase before it and reads, column by column, what the select list of that SQL puts out. Grouping
selects the row id in front of the columns that are read, and the schema is laid over the rows in
their order without it. -/
theorem phases_read_selected_columns {σ : Type} {style compilerStyle : KeyStyle}
    {request : Request} {baseSql sql : String} {config : ResolutionConfig} {s : σ}
    {log : List Answered} {t : σ × List Answered}
    (apart : NamesApart request.tableSchemas config request.projections)
    (accepted : (resolveArrays (Compiler.sql compilerStyle).recorded style request baseSql
      config).run (s, log) = (.ok sql, t)) :
    ∃ (run : ArrayRun (Compiler.sql compilerStyle).recorded style request baseSql config (s, log)
        sql t) (unnests resolves aggregates : Answered) (inner : String)
        (columns outputs : List String),
      columns = request.projections.map (baseColumn style request.tableSchemas) ∧
      outputs = (request.projections.flatMap (outputColumns config)).map
        (·.column style request.tableSchemas) ∧
      rowIdName ∉ outputs ∧
      run.afterUnnest = (s, unnests :: log) ∧
      run.afterResolve = (s, resolves :: unnests :: log) ∧
      run.afterAggregate = (s, aggregates :: resolves :: unnests :: log) ∧
      unnests.Selects run.unnested.sql ((columns ++ [rowIdName]).map quoteIdentifier) ∧
      Reads run.unnested (columns ++ [rowIdName]) ∧
      resolves.Selects run.resolved.sql ((outputs ++ [rowIdName]).map quoteIdentifier) ∧
      Reads run.resolved (outputs ++ [rowIdName]) ∧
      aggregates.Selects inner ((rowIdName :: outputs).map quoteIdentifier) ∧
      run.aggregated.sql = "SELECT * EXCLUDE (\"__row_id\") FROM (" ++ inner
        ++ ") AS __row_id_ordered ORDER BY \"__row_id\"" ∧
      Reads run.aggregated outputs := by
  obtain ⟨run⟩ := resolveArrays_ok accepted
  obtain ⟨unnests, hunnests, hselects₁, hcolumns₁⟩ := unnest_columns run.isBase.name
    run.isBase.measures (run.consistent_base apart) run.aliased_base run.unnests
  have hresolves := run.resolves
  rw [hunnests] at hresolves
  obtain ⟨resolves, hresolved, hselects₂, hcolumns₂⟩ := resolve_columns run.name_unnested
    run.measures_unnested run.exists_baseJoin (run.headings_unnested ▸ run.aliased_base)
    (config.nodup_safeKeyed apart.configs) hresolves
  have haggregates := run.aggregates
  rw [hresolved] at haggregates
  obtain ⟨aggregates, inner, row, haggregated, hselects₃, hsql, hrow, hcolumns₃⟩ :=
    aggregate_columns (run.readsHeadings_resolved apart).1 (run.consistent_resolved apart)
      (run.aliased_resolved apart) haggregates
  rw [Option.some.inj (hrow.symm.trans (run.find?_rowId_resolved apart))] at hcolumns₃
  rw [hcolumns₁, run.columns_base] at hselects₁
  rw [hcolumns₂, run.columns_resolved apart] at hselects₂
  rw [hcolumns₃, run.columns_aggregated apart] at hselects₃
  refine ⟨run, unnests, resolves, aggregates, inner, _, _, rfl, rfl, ?_, hunnests, hresolved,
    haggregated, hselects₁, run.reads_unnested, hselects₂, run.reads_resolved apart, hselects₃,
    hsql, run.reads_aggregated apart⟩
  intro hmem
  obtain ⟨x, hx, hcolumn⟩ := List.mem_map.1 hmem
  exact apart.column_ne style hx hcolumn

theorem namesApart_ordersRequest :
    NamesApart ordersRequest.tableSchemas ordersRequest.config ordersRequest.projections := by
  constructor <;> decide +kernel

theorem orders_phases_read_selected_columns :
    ∃ sql t, (resolveArrays (Compiler.sql .dotted).recorded .dotted ordersRequest "SELECT 1"
        ordersRequest.config).run ((), []) = (.ok sql, t) ∧
      ∃ (run : ArrayRun (Compiler.sql .dotted).recorded .dotted ordersRequest "SELECT 1"
          ordersRequest.config ((), []) sql t) (unnests resolves aggregates : Answered)
          (inner : String),
        run.afterAggregate = ((), [aggregates, resolves, unnests]) ∧
        unnests.Selects run.unnested.sql
          ["\"Order \"\"ID\"\"\"", "\"Owners\"", "\"orders.tag_id\"", "\"__row_id\""] ∧
        run.unnested.dimensions.map (·.sql) =
          ["__base_query.\"Order \"\"ID\"\"\"", "__base_query.\"Owners\"",
            "__base_query.\"orders.tag_id\"", "__base_query.\"__row_id\""] ∧
        resolves.Selects run.resolved.sql
          ["\"Order \"\"ID\"\"\"", "\"orders__owner_ids__name\"", "\"orders__owner_ids__email\"",
            "\"orders__tag_id__label\"", "\"__row_id\""] ∧
        run.resolved.dimensions.map (·.sql) =
          ["__base_query.\"Order \"\"ID\"\"\"", "__base_query.\"orders__owner_ids__name\"",
            "__base_query.\"orders__owner_ids__email\"", "__base_query.\"orders__tag_id__label\"",
            "__base_query.\"__row_id\""] ∧
        aggregates.Selects inner
          ["\"__row_id\"", "\"Order \"\"ID\"\"\"", "\"orders__owner_ids__name\"",
            "\"orders__owner_ids__email\"", "\"orders__tag_id__label\""] ∧
        run.aggregated.dimensions.map (·.sql) =
          ["__base_query.\"Order \"\"ID\"\"\"", "__base_query.\"orders__owner_ids__name\"",
            "__base_query.\"orders__owner_ids__email\"",
            "__base_query.\"orders__tag_id__label\""] := by
  obtain ⟨sql, t, accepted⟩ := Calling.exists_run_ok (show ((resolveArrays
    (Compiler.sql .dotted).recorded .dotted ordersRequest "SELECT 1"
      ordersRequest.config).run ((), [])).1.isOk = true by decide +kernel)
  obtain ⟨run, unnests, resolves, aggregates, inner, columns, outputs, hcolumns, houtputs, -, -, -,
    hlog, hselects₁, hreads₁, hselects₂, hreads₂, hselects₃, -, hreads₃⟩ :=
    phases_read_selected_columns namesApart_ordersRequest accepted
  have hcolumns : columns = ["Order \"ID\"", "Owners", "orders.tag_id"] := by
    rw [hcolumns]
    decide +kernel
  have houtputs : outputs = ["Order \"ID\"", "orders__owner_ids__name", "orders__owner_ids__email",
      "orders__tag_id__label"] := by
    rw [houtputs]
    decide +kernel
  subst hcolumns houtputs
  exact ⟨sql, t, accepted, run, unnests, resolves, aggregates, inner, hlog, hselects₁, hreads₁,
    hselects₂, hreads₂, hselects₃, hreads₃⟩

end Resolution
end SemanticLayer
