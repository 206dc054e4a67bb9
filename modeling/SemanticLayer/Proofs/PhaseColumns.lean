import Mathlib.Data.List.Basic
import SemanticLayer.Proofs.GraphBuild
import SemanticLayer.Proofs.JoinChains
import SemanticLayer.Proofs.LookupJoins
import SemanticLayer.Proofs.Runs

/-!
# SemanticLayer.Proofs.PhaseColumns

The phases of array resolution agree on the names of columns.

Each phase compiles a statement and hands on a schema over its SQL. Only names tie the two together:
the statement labels its columns in one way, the schema refers to them in another.

* `headings_resolve`, `headings_aggregate`: what the schemas list, for every compiler.
* `unnest_columns`, `resolve_columns`, `aggregate_columns`: the statement that a phase compiles puts
  out the columns of the headings that it hands on, and its text has them as its labels.
* `phases_read_selected_columns` puts them together over a whole run.
-/

namespace SemanticLayer

/-- The members of a recorded call are selected under the columns of its statement. If all fields
have an alias, the select list writes these columns in quotes. -/
theorem Compiler.recorded_columns {σ : Type} {style : KeyStyle} {call : Call} {s : σ}
    {log : List Answered} {sql : String} {t : σ × List Answered}
    (h : ((Compiler.sql style).recorded call).run (s, log) = (.ok sql, t)) :
    ∃ a : Answered, t = (s, a :: log) ∧
      (∃ source, Select.sourceOf call.query (Select.schemasFor call.query call.schemas) =
        .ok source) ∧
      (call.query.dimensions ++ call.query.measures).map
        (selectedName style (Select.schemasFor call.query call.schemas)) =
          (a.columns style).map some ∧
      ((∀ s ∈ call.schemas, s.FullyAliased) →
        a.Selects sql ((a.columns style).map quoteIdentifier)) := by
  obtain ⟨statement, hs, rfl, rfl⟩ := run_recorded_sql_ok.1 h
  obtain ⟨hsource, hnames⟩ := Select.ofQuery_ok hs
  have hcolumns : Answered.columns style ⟨call, .ok statement.render⟩ = statement.names :=
    Answered.columns_of_ok hs
  refine ⟨⟨call, .ok statement.render⟩, rfl, ⟨_, hsource⟩, ?_, ?_⟩
  · rw [hnames, hcolumns]
  · intro aliased
    rw [hcolumns, ← Select.labels_eq_quoted hs aliased]
    exact Answered.selects_labels hs

namespace Resolution

open Compiler (Answered)

/-- The dimensions of a schema read the given columns of the base table, in their order. -/
def Reads (s : TableSchema) (columns : List String) : Prop :=
  s.dimensions.map (·.sql) = columns.map fun c => "__base_query." ++ quoteIdentifier c

/-- Each dimension of a schema reads the column of its own heading. -/
def ReadsHeadings (s : TableSchema) : Prop :=
  ∀ d ∈ s.dimensions, d.sql = columnOf baseName d.heading.column

theorem ReadsHeadings.reads {s : TableSchema} (h : ReadsHeadings s) :
    Reads s (s.headings.map Heading.column) := by
  rw [Reads, TableSchema.headings, List.map_map, List.map_map]
  apply List.map_congr_left
  intro d hd
  rw [h d hd, columnOf_baseName]
  rfl

theorem readsHeadings_wrapperSchema {base : TableSchema} (h : base.name = baseName)
    (sql : String) : ReadsHeadings (wrapperSchema sql base) := by
  intro d hd
  rw [← h]
  exact sql_of_mem_wrapperSchema hd

theorem members_allDimensions (s : TableSchema) :
    (allDimensions s).dimensions ++ (allDimensions s).measures =
      s.headings.map fun h => Member.qualify s.name h.name := by
  simp [allDimensions, TableSchema.headings, Dimension.heading, Function.comp_def]

/-- A query for all dimensions of a schema selects them under their columns. -/
theorem columns_allDimensions {σ : Type} {style : KeyStyle} {schema : TableSchema}
    {context : Option ContextParams} {s : σ} {log : List Answered} {sql : String}
    {t : σ × List Answered} (hdot : '.' ∉ schema.name.toList) (hmeasures : schema.measures = [])
    (hc : Heading.Consistent schema.headings) (ha : Heading.Aliased schema.headings)
    (h : ((Compiler.sql style).recorded
      { query := allDimensions schema, schemas := [schema], context }).run (s, log) =
        (.ok sql, t)) :
    ∃ a : Answered, t = (s, a :: log) ∧
      a.Selects sql ((a.columns style).map quoteIdentifier) ∧
      a.columns style = schema.headings.map Heading.column := by
  obtain ⟨a, ht, -, hnames, hselects⟩ := Compiler.recorded_columns h
  have haliased := TableSchema.fullyAliased_of_no_measures hmeasures ha
  refine ⟨a, ht, hselects (by simpa using haliased), ?_⟩
  rw [Select.schemasFor_of_no_filters rfl, members_allDimensions, List.map_map] at hnames
  apply eq_of_map_some_eq
  rw [← hnames]
  exact selectedName_headings hdot hc ha style []

/-! ## Unnesting -/

theorem unnest_columns {σ : Type} {style : KeyStyle} {base next : TableSchema}
    {config : ResolutionConfig} {context : Option ContextParams} {s : σ} {log : List Answered}
    {t : σ × List Answered} (hname : base.name = baseName) (hmeasures : base.measures = [])
    (hc : Heading.Consistent base.headings) (ha : Heading.Aliased base.headings)
    (h : (unnest (Compiler.sql style).recorded base config context).run (s, log) = (.ok next, t)) :
    ∃ a : Answered, t = (s, a :: log) ∧
      a.Selects next.sql ((a.columns style).map quoteIdentifier) ∧
      a.columns style = base.headings.map Heading.column := by
  obtain ⟨sql, hcall, rfl⟩ := unnest_ok h
  rw [← headings_flattened config base] at hc ha ⊢
  exact columns_allDimensions (hname ▸ dot_not_mem_baseName) hmeasures hc ha hcall

/-! ## Joining the lookup tables -/

/-- The headings that the column of the given safe key ends up in. -/
def keyHeadings (hs : List Heading) (config : ResolutionConfig) (key : String) : List Heading :=
  match config.columnConfig? key with
  | some c => lookupHeadings c
  | none => (hs.find? (·.name = key)).toList

theorem keyHeadings_of_some {hs : List Heading} {config : ResolutionConfig} {key : String}
    {c : ColumnConfig} (h : config.columnConfig? key = some c) :
    keyHeadings hs config key = lookupHeadings c := by
  simp [keyHeadings, h]

theorem keyHeadings_of_none {hs : List Heading} {config : ResolutionConfig} {key : String}
    (h : config.columnConfig? key = none) :
    keyHeadings hs config key = (hs.find? (·.name = key)).toList := by
  simp [keyHeadings, h]

/-- A projection without a config is handed on as it is. -/
theorem resolvedDimensions_of_none {wrapper : TableSchema} {config : ResolutionConfig}
    {lookups : List TableSchema} (hl : lookupSchemas config = .ok lookups) {key : String}
    (hkey : Member.safeKey key = key) (hc : config.columnConfig? key = none)
    {dimensions : List Dimension} (h : resolvedDimensions wrapper lookups key = .ok dimensions) :
    ∃ d, wrapper.dimension? key = some d ∧ dimensions = [d] := by
  have hnone := ResolutionConfig.columnConfig?_eq_none hc
  rw [hkey] at hnone
  have hfind : lookups.reverse.find? (·.name = key) = none := by
    rw [← List.head?_filter, List.filter_reverse, filter_lookupSchemas_eq_nil hl hnone]
    rfl
  rw [resolvedDimensions, hfind] at h
  simp only at h
  split at h
  · rename_i d hd
    cases h
    exact ⟨d, hd, rfl⟩
  · cases h

/-- The dimensions of a projection have the headings that its key leads to, and each of them reads
the column of its heading. -/
theorem resolvedDimensions_ok {wrapper : TableSchema} {config : ResolutionConfig}
    {lookups : List TableSchema} (hl : lookupSchemas config = .ok lookups)
    (hdistinct : (config.columnConfigs.map (·.safeName)).Nodup) {key : String}
    (hkey : Member.safeKey key = key) {dimensions : List Dimension}
    (h : resolvedDimensions wrapper lookups key = .ok dimensions) :
    dimensions.map (·.heading) = keyHeadings wrapper.headings config key ∧
      (config.columnConfig? key = none → ∃ x, wrapper.headings.find? (·.name = key) = some x) ∧
      ∀ d ∈ dimensions,
        d ∈ wrapper.dimensions ∨ d.sql = columnOf wrapper.name d.heading.column := by
  cases hc : config.columnConfig? key with
  | some c =>
    obtain ⟨hmem, hsafe⟩ := ResolutionConfig.columnConfig?_eq_some hc
    obtain ⟨lookup, hlookup, hfilter⟩ := filter_lookupSchemas hl hdistinct hmem
    rw [hsafe, hkey] at hfilter
    rw [resolvedDimensions, find?_of_filter_eq_singleton hfilter] at h
    cases h
    refine ⟨?_, by simp, ?_⟩
    · rw [keyHeadings_of_some hc, ← headings_of_lookupSchema hlookup]
      simp [TableSchema.headings, Dimension.heading]
    · intro d hd
      obtain ⟨d', _, rfl⟩ := List.mem_map.1 hd
      exact .inr rfl
  | none =>
    obtain ⟨d, hd, rfl⟩ := resolvedDimensions_of_none hl hkey hc h
    have hheading : wrapper.headings.find? (·.name = key) = some d.heading := by
      rw [TableSchema.find?_headings, hd]
      rfl
    refine ⟨by simp [keyHeadings_of_none hc, hheading], fun _ => ⟨_, hheading⟩, ?_⟩
    intro d' hd'
    rw [List.mem_singleton.1 hd']
    exact .inl (TableSchema.dimension?_eq_some hd).1

theorem headings_resolve {σ : Type} {compiler : Compiler σ} {base next : TableSchema}
    {config : ResolutionConfig} {projections : List String} {context : Option ContextParams}
    {s t : σ} (hmeasures : base.measures = [])
    (hdistinct : (config.columnConfigs.map (·.safeName)).Nodup)
    (h : (resolve compiler base config projections context).run s = (.ok next, t)) :
    next.headings =
      (projections.map Member.safeKey).flatMap (keyHeadings base.headings config) := by
  obtain ⟨lookups, sql, dimensions, hl, -, hd, rfl⟩ := resolve_ok h
  have hwrapper := headings_wrapperSchema_of_no_measures hmeasures sql
  rw [← hwrapper]
  apply flatMap_of_mapM_ok hd
  intro key hkey ds hds
  obtain ⟨p, _, rfl⟩ := List.mem_map.1 hkey
  exact (resolvedDimensions_ok hl hdistinct (Member.safeKey_safeKey p) hds).1

theorem readsHeadings_resolve {σ : Type} {compiler : Compiler σ} {base next : TableSchema}
    {config : ResolutionConfig} {projections : List String} {context : Option ContextParams}
    {s t : σ} (hname : base.name = baseName)
    (hdistinct : (config.columnConfigs.map (·.safeName)).Nodup)
    (h : (resolve compiler base config projections context).run s = (.ok next, t)) :
    next.name = baseName ∧ ReadsHeadings next := by
  obtain ⟨lookups, sql, dimensions, hl, -, hd, rfl⟩ := resolve_ok h
  refine ⟨hname, ?_⟩
  intro d hmem
  obtain ⟨ds, hds, hmem⟩ := List.mem_flatten.1 hmem
  obtain ⟨key, hkey, hok⟩ := exists_of_mem_mapM_ok hd hds
  obtain ⟨p, _, rfl⟩ := List.mem_map.1 hkey
  rcases (resolvedDimensions_ok hl hdistinct (Member.safeKey_safeKey p) hok).2.2 d hmem with h | h
  · exact readsHeadings_wrapperSchema hname sql d h
  · rw [h]
    exact congrArg (columnOf · _) hname

/-- In a statement over several schemas, the declared joins of the base table can be read. -/
theorem edgeOf_of_sourceOf {base : TableSchema} {lookups : List TableSchema} {q : Query}
    {source : JoinChain} {join : JoinDeclaration} (hname : base.name = baseName)
    (hjoin : join ∈ base.joins) (hlookups : lookups ≠ [])
    (h : Select.sourceOf q (base :: lookups) = .ok source) :
    ∃ e, JoinGraph.edgeOf baseName join.sql = .ok e := by
  have hlength : (base :: lookups).length ≠ 1 := by simpa using hlookups
  obtain ⟨g, hg, -⟩ := joinedChain_eq_ok_iff.1 ((sourceOf_eq_ok_iff hlength).1 h)
  rw [← hname]
  exact JoinGraph.edgeOf_of_build hg List.mem_cons_self hjoin

/-- A column that the base table is joined over is not under the name of the base table. -/
theorem safeName_ne_baseName {style : KeyStyle} {schemas : List TableSchema} {base : TableSchema}
    {lookups : List TableSchema} {q : Query} {source : JoinChain} {c : ColumnConfig}
    (hname : base.name = baseName) (hjoin : baseJoin style schemas c ∈ base.joins)
    (hlookups : lookups ≠ []) (h : Select.sourceOf q (base :: lookups) = .ok source) :
    c.safeName ≠ baseName := by
  obtain ⟨e, he⟩ := edgeOf_of_sourceOf hname hjoin hlookups h
  exact safeName_ne_of_edgeOf he

/-- The lookup columns of a projection are selected under their resolved names, any other projection
under the column of its heading. -/
theorem selectedName_expandMember {style : KeyStyle} {base : TableSchema}
    {config : ResolutionConfig} {lookups : List TableSchema} (hname : base.name = baseName)
    (hl : lookupSchemas config = .ok lookups)
    (hdistinct : (config.columnConfigs.map (·.safeName)).Nodup)
    (hne : ∀ c ∈ config.columnConfigs, c.safeName ≠ baseName)
    (ha : Heading.Aliased base.headings) {key : String} (hkey : Member.safeKey key = key)
    (hfound : config.columnConfig? key = none →
      ∃ x, base.headings.find? (·.name = key) = some x) :
    (expandMember base.name config key).map (selectedName style (base :: lookups)) =
      (keyHeadings base.headings config key).map fun x => some x.column := by
  cases hc : config.columnConfig? key with
  | none =>
    obtain ⟨x, hx⟩ := hfound hc
    have hdot : '.' ∉ base.name.toList := hname ▸ dot_not_mem_baseName
    have hselected := selectedName_of_heading hdot hx (ha x (List.mem_of_find?_eq_some hx)) style
      lookups
    simp [expandMember, hc, hkey, hselected, keyHeadings_of_none hc, hx]
  | some c =>
    obtain ⟨hmem, _⟩ := ResolutionConfig.columnConfig?_eq_some hc
    have hbase : base.name ≠ c.safeName := by
      rw [hname]
      exact Ne.symm (hne c hmem)
    rw [keyHeadings_of_some hc, lookupHeadings, expandMember, hc]
    simp only [List.map_map]
    apply List.map_congr_left
    intro column hcolumn
    rw [Function.comp_apply, Function.comp_apply, Heading.column_plain,
      selectedName_lookup (labelledLookups_id hl hdistinct) hmem hbase hcolumn style, id]

theorem resolve_columns {σ : Type} {style compilerStyle : KeyStyle} {schemas : List TableSchema}
    {base next : TableSchema} {config : ResolutionConfig} {projections : List String}
    {context : Option ContextParams} {s : σ} {log : List Answered} {t : σ × List Answered}
    (hname : base.name = baseName) (hmeasures : base.measures = [])
    (hjoins : ∀ c ∈ config.columnConfigs, ∃ c', c'.safeName = c.safeName ∧
      baseJoin style schemas c' ∈ base.joins)
    (ha : Heading.Aliased base.headings)
    (hdistinct : (config.columnConfigs.map (·.safeName)).Nodup)
    (h : (resolve (Compiler.sql compilerStyle).recorded base config projections context).run
      (s, log) = (.ok next, t)) :
    ∃ a : Answered, t = (s, a :: log) ∧
      a.Selects next.sql ((a.columns compilerStyle).map quoteIdentifier) ∧
      a.columns compilerStyle = next.headings.map Heading.column := by
  have hheadings := headings_resolve hmeasures hdistinct h
  obtain ⟨lookups, sql, dimensions, hl, hcall, hd, hnext⟩ := resolve_ok h
  obtain ⟨a, ht, ⟨source, hsource⟩, hnames, hselects⟩ := Compiler.recorded_columns hcall
  have haliased : ∀ s ∈ base :: lookups, s.FullyAliased :=
    List.forall_mem_cons.2
      ⟨TableSchema.fullyAliased_of_no_measures hmeasures ha, fullyAliased_lookupSchemas hl⟩
  refine ⟨a, ht, hnext ▸ hselects haliased, ?_⟩
  rw [Select.schemasFor_of_no_filters rfl] at hsource hnames
  -- The statement has a source, so the joins of the base table could be read.
  have hne : ∀ c ∈ config.columnConfigs, c.safeName ≠ baseName := by
    intro c hc
    obtain ⟨c', hsafe, hjoin⟩ := hjoins c hc
    obtain ⟨lookup, hlookup, _⟩ := exists_of_mapM_ok hl hc
    rw [← hsafe]
    exact safeName_ne_baseName hname hjoin (List.ne_nil_of_mem hlookup) hsource
  have hwrapper := headings_wrapperSchema_of_no_measures hmeasures sql
  apply eq_of_map_some_eq
  rw [← hnames, hheadings, List.map_map, List.map_flatMap]
  simp only [resolveCall, List.append_nil, expandMembers, List.map_flatMap]
  apply List.flatMap_congr
  intro key hkey
  obtain ⟨p, _, rfl⟩ := List.mem_map.1 hkey
  obtain ⟨ds, _, hds⟩ := exists_of_mapM_ok hd hkey
  have hfound := (resolvedDimensions_ok hl hdistinct (Member.safeKey_safeKey p) hds).2.1
  rw [hwrapper] at hfound
  exact selectedName_expandMember hname hl hdistinct hne ha (Member.safeKey_safeKey p) hfound

/-! ## Grouping by row -/

theorem measureHeadings_grouped (config : ResolutionConfig) (s : TableSchema) (rowId : Dimension) :
    (grouped config s rowId).measureHeadings = s.headings.filter (·.name ≠ rowId.name) := by
  rw [TableSchema.headings, List.filter_map]
  simp [grouped, TableSchema.measureHeadings, aggregateMeasure, Measure.heading, Dimension.heading,
    Function.comp_def]

theorem headings_aggregate {σ : Type} {compiler : Compiler σ} {resolved next : TableSchema}
    {config : ResolutionConfig} {context : Option ContextParams} {s t : σ}
    (h : (aggregate compiler resolved config context).run s = (.ok next, t)) :
    next.name = resolved.name ∧
      next.headings = resolved.headings.filter (·.name ≠ rowIdName) := by
  obtain ⟨rowId, sql, hrow, -, rfl⟩ := aggregate_ok h
  have hmeasures := measureHeadings_grouped config resolved rowId
  rw [(TableSchema.dimension?_eq_some hrow).2] at hmeasures
  exact ⟨rfl, by rw [headings_wrapperSchema]; exact hmeasures⟩

theorem readsHeadings_aggregate {σ : Type} {compiler : Compiler σ} {resolved next : TableSchema}
    {config : ResolutionConfig} {context : Option ContextParams} {s t : σ}
    (hname : resolved.name = baseName)
    (h : (aggregate compiler resolved config context).run s = (.ok next, t)) :
    ReadsHeadings next := by
  obtain ⟨rowId, sql, -, -, rfl⟩ := aggregate_ok h
  intro d hd
  rw [sql_of_mem_wrapperSchema hd]
  exact congrArg (columnOf · _) hname

theorem members_groupedQuery (s : TableSchema) :
    (groupedQuery s).dimensions ++ (groupedQuery s).measures =
      (s.headings ++ s.measureHeadings).map fun h => Member.qualify s.name h.name := by
  simp [groupedQuery, allDimensions, TableSchema.headings, TableSchema.measureHeadings,
    Dimension.heading, Measure.heading, Function.comp_def]

/-- The row id is selected first, then every column that is handed on. -/
theorem aggregate_columns {σ : Type} {style : KeyStyle} {resolved next : TableSchema}
    {config : ResolutionConfig} {context : Option ContextParams} {s : σ} {log : List Answered}
    {t : σ × List Answered} (hname : resolved.name = baseName)
    (hc : Heading.Consistent resolved.headings) (ha : Heading.Aliased resolved.headings)
    (h : (aggregate (Compiler.sql style).recorded resolved config context).run (s, log) =
      (.ok next, t)) :
    ∃ (a : Answered) (inner : String) (row : Heading), t = (s, a :: log) ∧
      a.Selects inner ((a.columns style).map quoteIdentifier) ∧
      next.sql = "SELECT * EXCLUDE (\"__row_id\") FROM (" ++ inner
        ++ ") AS __row_id_ordered ORDER BY \"__row_id\"" ∧
      resolved.headings.find? (·.name = rowIdName) = some row ∧
      a.columns style = row.column :: next.headings.map Heading.column := by
  have hnext := (headings_aggregate h).2
  obtain ⟨rowId, sql, hrow, hcall, hwrapper⟩ := aggregate_ok h
  obtain ⟨a, ht, -, hnames, hselects⟩ := Compiler.recorded_columns hcall
  obtain ⟨hmem, hrowName⟩ := TableSchema.dimension?_eq_some hrow
  have hfind : resolved.headings.find? (·.name = rowIdName) = some rowId.heading := by
    rw [TableSchema.find?_headings, hrow]
    rfl
  have haliased : (grouped config resolved rowId).FullyAliased := by
    apply TableSchema.fullyAliased_of_headings
    · intro x hx
      rw [List.mem_singleton.1 hx]
      exact ha _ (List.mem_map_of_mem hmem)
    · rw [measureHeadings_grouped]
      exact fun x hx => ha x (List.mem_filter.1 hx).1
  refine ⟨a, sql, rowId.heading, ht, hselects (by simpa [aggregateCall] using haliased),
    (congrArg TableSchema.sql hwrapper).trans (orderByRowId_rowIdName sql), hfind, ?_⟩
  have hdot : '.' ∉ (grouped config resolved rowId).name.toList := hname ▸ dot_not_mem_baseName
  have hdimensions : (grouped config resolved rowId).headings = [rowId.heading] := rfl
  have hmeasures := measureHeadings_grouped config resolved rowId
  rw [hrowName, ← hnext] at hmeasures
  have hrowFind : (grouped config resolved rowId).headings.find? (·.name = rowId.name) =
      some rowId.heading := by
    simp [hdimensions, Dimension.heading]
  have hrowSelected := selectedName_of_heading hdot hrowFind (ha _ (List.mem_map_of_mem hmem))
    style []
  have hselected : ∀ x ∈ next.headings, selectedName style [grouped config resolved rowId]
      (Member.qualify (grouped config resolved rowId).name x.name) = some x.column := by
    intro x hx
    have hfilter := hx
    rw [hnext] at hfilter
    obtain ⟨hresolved, hne⟩ := List.mem_filter.1 hfilter
    have hne : rowId.name ≠ x.name := by
      rw [hrowName]
      exact Ne.symm (of_decide_eq_true hne)
    refine selectedName_of_measureHeading hdot ?_ ?_ (ha x hresolved) style []
    · simpa [hdimensions, Dimension.heading] using hne
    · have hconsistent : Heading.Consistent next.headings := by
        rw [hnext]
        exact hc.filter _
      rw [hmeasures]
      exact hconsistent.find? hx
  apply eq_of_map_some_eq
  rw [← hnames, Select.schemasFor_of_no_filters rfl]
  simp only [aggregateCall, members_groupedQuery, hdimensions, hmeasures, List.map_cons,
    List.singleton_append, List.map_map]
  exact congrArg₂ List.cons hrowSelected (List.map_congr_left hselected)

end Resolution
end SemanticLayer
