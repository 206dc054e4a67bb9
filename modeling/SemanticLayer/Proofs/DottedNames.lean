import SemanticLayer.Proofs.Calls
import SemanticLayer.Proofs.OutputNames

/-!
# SemanticLayer.Proofs.DottedNames

What becomes of a projection that is not resolved, without any condition on names.

The base query puts a member without an alias out under the member as it is written, if the style is
dotted. Scalar resolution selects it under the same name. Array resolution knows it by its safe key
alone, and the alias map, which is to restore the names, has no entry for it. So it keeps its name
only by chance: `dotted_name_kept_iff` says when.
-/

namespace SemanticLayer
namespace Resolution

open Calling (calls)
open Compiler (Answered)

/-! ## The row id -/

/-- The name of the row id has its double underscore in front. -/
theorem safeName_of_resolvedName {c : ColumnConfig} {column : String}
    (h : c.resolvedName column = rowIdName) : c.safeName = "" := by
  rw [c.resolvedName_eq] at h
  have hlist : c.safeName.toList ++ (['_', '_'] ++ (Member.safeKey column).toList) =
      rowIdName.toList := by
    rw [← h]
    simp
  have hlength : c.safeName.toList.length ≤ rowIdName.toList.length := by
    rw [← hlist, List.length_append]
    omega
  have hdrop := congrArg (List.drop c.safeName.toList.length) hlist
  rw [List.drop_left] at hdrop
  have hprefix : ['_', '_'] <+: rowIdName.toList.drop c.safeName.toList.length := ⟨_, hdrop⟩
  have honly : ∀ n ≤ rowIdName.toList.length, ['_', '_'] <+: rowIdName.toList.drop n → n = 0 := by
    decide
  exact String.toList_eq_nil_iff.1 (List.length_eq_zero_iff.1 (honly _ hlength hprefix))

/-- A dimension of the joined schema comes from the schema before it or from a lookup table. -/
theorem resolvedDimensions_cases {wrapper : TableSchema} {config : ResolutionConfig}
    {lookups : List TableSchema} (hl : lookupSchemas config = .ok lookups) {key : String}
    {dimensions : List Dimension} (h : resolvedDimensions wrapper lookups key = .ok dimensions)
    {d : Dimension} (hd : d ∈ dimensions) :
    (d.name = key ∧ ∀ c ∈ config.columnConfigs, c.safeName ≠ key) ∨
      ∃ c ∈ config.columnConfigs, ∃ column, d.name = c.resolvedName column := by
  rw [resolvedDimensions] at h
  split at h
  · rename_i lookup hfind
    cases h
    right
    obtain ⟨d', hd', rfl⟩ := List.mem_map.1 hd
    have hmem : lookup ∈ lookups := List.mem_reverse.1 (List.mem_of_find?_eq_some hfind)
    obtain ⟨c, hc, hlookup⟩ := exists_of_mem_mapM_ok hl hmem
    have hheading : d'.heading ∈ lookupHeadings c := by
      rw [← headings_of_lookupSchema hlookup]
      exact List.mem_map_of_mem hd'
    obtain ⟨column, -, hcolumn⟩ := List.mem_map.1 hheading
    exact ⟨c, hc, column, (congrArg Heading.name hcolumn).symm⟩
  · rename_i hfind
    split at h
    · rename_i d' hd'
      cases h
      rw [List.mem_singleton.1 hd]
      refine .inl ⟨(TableSchema.dimension?_eq_some hd').2, ?_⟩
      intro c hc he
      obtain ⟨lookup, hlookup, hok⟩ := exists_of_mapM_ok hl hc
      have hname := List.find?_eq_none.1 hfind lookup (List.mem_reverse.2 hlookup)
      rw [name_of_lookupSchema hok, he] at hname
      exact hname (decide_eq_true rfl)
    · cases h

/-- The lookup table of a column without a name cannot be joined. -/
theorem ArrayRun.safeName_ne_empty {σ : Type} {style compilerStyle : KeyStyle} {request : Request}
    {baseSql sql : String} {config : ResolutionConfig} {s t : σ × List Answered}
    (run : ArrayRun (Compiler.sql compilerStyle).recorded style request baseSql config s sql t)
    {c : ColumnConfig} (hc : c ∈ config.columnConfigs) : c.safeName ≠ "" := by
  obtain ⟨lookups, _, _, hl, hcall, -, -⟩ := resolve_ok run.resolves
  obtain ⟨_, -, ⟨source, hsource⟩, -⟩ := Compiler.recorded_columns hcall
  rw [Select.schemasFor_of_no_filters rfl] at hsource
  have hjoin : baseJoin style request.tableSchemas c ∈ run.unnested.joins := by
    rw [run.joins_unnested]
    exact List.mem_map_of_mem hc
  obtain ⟨lookup, hlookup, -⟩ := exists_of_mapM_ok hl (List.mem_map_of_mem hc)
  obtain ⟨e, he⟩ :=
    edgeOf_of_sourceOf run.name_unnested hjoin (List.ne_nil_of_mem hlookup) hsource
  exact safeName_ne_empty_of_edgeOf he

/-- A run that ends has not resolved the row id: its rows could not be grouped, unless a lookup
column took the name of the row id, and the lookup table of such a column cannot be joined. -/
theorem ArrayRun.rowId_not_resolved {σ : Type} {style compilerStyle : KeyStyle} {request : Request}
    {baseSql sql : String} {config : ResolutionConfig} {s t : σ × List Answered}
    (run : ArrayRun (Compiler.sql compilerStyle).recorded style request baseSql config s sql t) :
    config.columnConfig? rowIdName = none := by
  obtain ⟨rowId, -, hrow, -, -⟩ := aggregate_ok run.aggregates
  obtain ⟨hmem, hname⟩ := TableSchema.dimension?_eq_some hrow
  obtain ⟨lookups, _, dimensions, hl, -, hd, hnext⟩ := resolve_ok run.resolves
  rw [hnext] at hmem
  obtain ⟨ds, hds, hmem⟩ := List.mem_flatten.1 hmem
  obtain ⟨key, -, hok⟩ := exists_of_mem_mapM_ok hd hds
  rcases resolvedDimensions_cases hl hok hmem with ⟨hkey, hnone⟩ | ⟨c, hc, column, hcolumn⟩
  · apply List.find?_eq_none.2
    intro c hc he
    have hsafe := of_decide_eq_true he
    rw [safeKey_rowIdName, ← hname, hkey] at hsafe
    exact hnone c.keyed (List.mem_map_of_mem hc) (c.safeName_keyed.trans hsafe)
  · exfalso
    obtain ⟨c, hmem, rfl⟩ := List.mem_map.1 hc
    have hempty := safeName_of_resolvedName (hcolumn.symm.trans hname)
    exact run.safeName_ne_empty hmem (c.safeName_keyed.symm.trans hempty)

/-! ## Array resolution -/

/-- Joining the lookup tables leaves a projection without a config under its safe key. -/
theorem names_resolve {σ : Type} {compiler : Compiler σ} {base next : TableSchema}
    {config : ResolutionConfig} {projections : List String} {context : Option ContextParams}
    {s t : σ} (h : (resolve compiler base config projections context).run s = (.ok next, t)) :
    next.name = base.name ∧ ∃ names : String → List String,
      next.headings.map (·.name) = (projections.map Member.safeKey).flatMap names ∧
      ∀ key ∈ projections.map Member.safeKey, config.columnConfig? key = none →
        names key = [key] := by
  obtain ⟨lookups, sql, dimensions, hl, -, hd, rfl⟩ := resolve_ok h
  refine ⟨rfl, fun key => ((resolvedDimensions (wrapperSchema sql base) lookups
    key).toOption.getD []).map (·.name), ?_, ?_⟩
  · rw [TableSchema.headings, List.map_map]
    apply flatMap_of_mapM_ok hd
    intro key _ ds hds
    rw [hds]
    rfl
  · intro key hkey hc
    obtain ⟨ds, -, hds⟩ := exists_of_mapM_ok hd hkey
    obtain ⟨p, -, rfl⟩ := List.mem_map.1 hkey
    obtain ⟨d, hfound, rfl⟩ := resolvedDimensions_of_none hl (Member.safeKey_safeKey p) hc hds
    simp only [hds, Except.toOption, Option.getD_some, List.map_cons, List.map_nil,
      (TableSchema.dimension?_eq_some hfound).2]

theorem array_columns {σ : Type} {style compilerStyle : KeyStyle} {request : Request}
    {baseSql sql : String} {config : ResolutionConfig} {s t : σ × List Answered}
    (accepted : (resolveArrays (Compiler.sql compilerStyle).recorded style request baseSql
      config).run s = (.ok sql, t)) :
    ∃ aliases last earlier names, aliasMap request.tableSchemas config = .ok aliases ∧
      t.2 = last :: earlier ∧
      last.Selects sql ((last.columns compilerStyle).map quoteIdentifier) ∧
      last.columns compilerStyle = request.projections.flatMap names ∧
      ∀ p ∈ request.projections, config.columnConfig? p = none →
        names p = if Member.safeKey p = rowIdName then []
          else [(aliases.get? (Member.safeKey p)).getD (Member.safeKey p)] := by
  obtain ⟨run⟩ := resolveArrays_ok accepted
  obtain ⟨haggregated, hheadings⟩ := headings_aggregate run.aggregates
  obtain ⟨hresolved, keyNames, hnames, hkey⟩ := names_resolve run.resolves
  obtain ⟨aliases, last, earlier, ha, ht, hselects, hcolumns⟩ := restoreAliases_columns
    (haggregated.trans (hresolved.trans run.name_unnested)) run.measures_aggregated run.restores
  rw [aliasMap_safeKeyed] at ha
  have hunresolved : ∀ p ∈ request.projections ++ [rowIdName], config.columnConfig? p = none →
      keyNames (Member.safeKey p) = [Member.safeKey p] := by
    intro p hp hc
    apply hkey _ (List.mem_map_of_mem hp)
    rw [config.columnConfig?_safeKeyed, config.columnConfig?_safeKey, hc]
    rfl
  let label : String → String := fun name => (aliases.get? name).getD name
  let names : String → List String := fun p =>
    ((keyNames (Member.safeKey p)).filter (· ≠ rowIdName)).map label
  have hrow : names rowIdName = [] := by
    simp only [names]
    rw [hunresolved rowIdName (by simp) run.rowId_not_resolved]
    simp
  refine ⟨aliases, last, earlier, names, ha, ht, hselects, ?_, ?_⟩
  · calc last.columns compilerStyle
        = ((run.resolved.headings.map (·.name)).filter (· ≠ rowIdName)).map label := by
          rw [hcolumns, hheadings, List.filter_map, List.map_map]
          rfl
      _ = (request.projections ++ [rowIdName]).flatMap names := by
          rw [hnames, List.filter_flatMap, List.map_flatMap, List.flatMap_map]
      _ = request.projections.flatMap names := by
          rw [List.flatMap_append, List.flatMap_singleton, hrow, List.append_nil]
  · intro p hp hc
    simp only [names, hunresolved p (List.mem_append_left _ hp) hc, label]
    by_cases hkey : Member.safeKey p = rowIdName
    · simp [hkey]
    · simp [hkey]

/-! ## Scalar resolution -/

theorem selectedName_key {style compilerStyle : KeyStyle} {baseSql : String}
    {schemas : List TableSchema} {configs : List ColumnConfig} {members : List String}
    {base : TableSchema} {lookups : List TableSchema}
    (isBase : IsBase style baseSql schemas configs members base)
    (hne : ∀ lookup ∈ lookups, lookup.name ≠ base.name) {key column : String}
    (h : selectedName compilerStyle (base :: lookups) (Member.qualify base.name key) =
      some column) : column = columnOfKey style schemas members key := by
  rw [selectedName_base (isBase.name ▸ dot_not_mem_baseName) isBase.measures hne,
    Option.map_eq_some_iff] at h
  obtain ⟨x, hx, rfl⟩ := h
  have halias := isBase.aliased x (List.mem_of_find?_eq_some hx)
  rw [← alias_find?_baseHeadings, ← isBase.headings, hx, Option.bind_some, halias]
  rfl

theorem scalar_columns {σ : Type} {style compilerStyle : KeyStyle} {request : Request}
    {baseSql sql : String} {config : ResolutionConfig} {s t : σ × List Answered}
    (accepted : (resolveScalars (Compiler.sql compilerStyle).recorded style request baseSql
      config).run s = (.ok sql, t)) :
    ∃ aliases last earlier inner names row,
      aliasMap request.tableSchemas config = .ok aliases ∧ t.2 = last :: earlier ∧
      sql = "SELECT * EXCLUDE (\"__row_id\") FROM (" ++ inner
        ++ ") AS __row_id_ordered ORDER BY \"__row_id\"" ∧
      last.Selects inner ((last.columns compilerStyle).map quoteIdentifier) ∧
      last.columns compilerStyle = request.projections.flatMap names ++ [row] ∧
      ∀ p ∈ request.projections, config.columnConfig? p = none →
        names p = [columnOfKey style request.tableSchemas request.query.members
          (Member.safeKey p)] := by
  obtain ⟨base, aliases, lookups, inner, hbase, ha, hl, hcall, hsql⟩ := resolveScalars_ok accepted
  have isBase := preparedBase_ok hbase
  obtain ⟨last, ht, ⟨source, hsource⟩, hselected, hselects⟩ := Compiler.recorded_columns hcall
  have hselects := hselects (fullyAliased_scalarCall isBase hl)
  rw [Select.schemasFor_of_no_filters rfl] at hsource hselected
  simp only [scalarCall, List.append_nil] at hsource hselected
  have hne := lookup_ne_of_sourceOf isBase hl hsource
  generalize lookups.map (applyAliases aliases) = labelled at hselected hne
  obtain ⟨row, hrow⟩ := exists_of_map_eq hselected
    (List.mem_append_right _ (List.mem_singleton_self (Member.qualify base.name rowIdName)))
  refine ⟨aliases, last, _, inner, fun p => (expandMember base.name config p).filterMap
    (selectedName compilerStyle (base :: labelled)), row, ha, congrArg Prod.snd ht, hsql, hselects,
    ?_, ?_⟩
  · rw [filterMap_of_map_eq hselected, List.filterMap_append, expandMembers,
      List.filterMap_flatMap, List.filterMap_cons_some hrow, List.filterMap_nil]
  · intro p hp hc
    have hmember : expandMember base.name config p =
        [Member.qualify base.name (Member.safeKey p)] := by rw [expandMember, hc]
    have hlisted : Member.qualify base.name (Member.safeKey p) ∈
        expandMembers base.name config request.projections :=
      List.mem_flatMap.2 ⟨p, hp, by simp [hmember]⟩
    obtain ⟨column, hcolumn⟩ := exists_of_map_eq hselected (List.mem_append_left _ hlisted)
    beta_reduce
    rw [hmember, List.filterMap_cons_some hcolumn, List.filterMap_nil,
      selectedName_key isBase hne hcolumn]

/-! ## Both pipelines -/

/-- The columns that a projection without a config is put out under, in dot notation. -/
def unresolvedNames (request : Request) (aliases : Dictionary) (p : String) : List String :=
  if (projectedConfig request).hasArrayColumns then
    if Member.safeKey p = rowIdName then []
    else [(aliases.get? (Member.safeKey p)).getD (Member.safeKey p)]
  else [columnOfKey .dotted request.tableSchemas request.query.members (Member.safeKey p)]

/-- In array resolution, an alias of a member with the same safe key happens to be the dotted name.
In scalar resolution, the first member of the query with the same safe key has this name. -/
def KeepsDots (request : Request) (aliases : Dictionary) (p : String) : Prop :=
  if (projectedConfig request).hasArrayColumns then
    Member.safeKey p ≠ rowIdName ∧ aliases.get? (Member.safeKey p) = some p
  else
    (request.query.members.find? fun m => Member.safeKey m = Member.safeKey p).map
      (baseColumn .dotted request.tableSchemas) = some p

theorem unresolvedNames_eq_singleton_iff {request : Request} {aliases : Dictionary} {p : String}
    (hdot : '.' ∈ p.toList) :
    unresolvedNames request aliases p = [p] ↔ KeepsDots request aliases p := by
  -- A safe key has no dot, so it is not the name by default.
  have hkey : Member.safeKey p ≠ p := by
    intro he
    rw [← he] at hdot
    exact Member.dot_not_mem_safeKey p hdot
  have hgetD : ∀ given : Option String, given.getD (Member.safeKey p) = p ↔ given = some p := by
    intro given
    cases given with
    | none => simp [hkey]
    | some a => simp
  rw [unresolvedNames, KeepsDots]
  split
  · split
    · rename_i hrow
      simp [hrow]
    · rename_i hrow
      simp [hrow, hgetD]
  · simp [columnOfKey, hgetD]

/-- In dot notation the output has a block of columns for each projection, in their order, and after
them the row id that scalar resolution leaves out again. A projection `table.field` without a config
is put out under this name exactly if `KeepsDots` says so. -/
theorem dotted_name_kept_iff {σ : Type} {request : Request} {sql : String}
    {s t : σ × List Answered} (projected : (projectedConfig request).columnConfigs ≠ [])
    (accepted : (compile (Compiler.sql .dotted).recorded .dotted request).run s = (.ok sql, t)) :
    ∃ aliases last earlier inner names,
      aliasMap request.tableSchemas (projectedConfig request) = .ok aliases ∧
      t.2 = last :: earlier ∧ last.answer = .ok inner ∧
      last.Selects inner ((last.columns .dotted).map quoteIdentifier) ∧
      (if (projectedConfig request).hasArrayColumns then
        sql = inner ∧ last.columns .dotted = request.projections.flatMap names
      else
        sql = "SELECT * EXCLUDE (\"__row_id\") FROM (" ++ inner
          ++ ") AS __row_id_ordered ORDER BY \"__row_id\"" ∧
          ∃ row, last.columns .dotted = request.projections.flatMap names ++ [row]) ∧
      ∀ p ∈ request.projections, (projectedConfig request).columnConfig? p = none →
        names p = unresolvedNames request aliases p ∧
          ('.' ∈ p.toList → (names p = [p] ↔ KeepsDots request aliases p)) := by
  have hkept : ∀ {aliases : Dictionary} {names : String → List String} {p : String},
      names p = unresolvedNames request aliases p →
        names p = unresolvedNames request aliases p ∧
          ('.' ∈ p.toList → (names p = [p] ↔ KeepsDots request aliases p)) :=
    fun h => ⟨h, fun hdot => h ▸ unresolvedNames_eq_singleton_iff hdot⟩
  rw [compile_eq] at accepted
  obtain ⟨baseSql, s₁, -, accepted⟩ := Calling.run_bind_ok.1 accepted
  by_cases harray : (projectedConfig request).hasArrayColumns = true
  · rw [resolveProjected_arrays projected harray] at accepted
    obtain ⟨aliases, last, earlier, names, ha, ht, hselects, hcolumns, hnames⟩ :=
      array_columns accepted
    refine ⟨aliases, last, earlier, sql, names, ha, ht, hselects.answer, hselects, ?_, ?_⟩
    · rw [if_pos harray]
      exact ⟨rfl, hcolumns⟩
    · intro p hp hc
      apply hkept
      rw [hnames p hp hc, unresolvedNames, if_pos harray]
  · rw [resolveProjected_scalars projected harray] at accepted
    obtain ⟨aliases, last, earlier, inner, names, row, ha, ht, hsql, hselects, hcolumns, hnames⟩ :=
      scalar_columns accepted
    refine ⟨aliases, last, earlier, inner, names, ha, ht, hselects.answer, hselects, ?_, ?_⟩
    · rw [if_neg harray]
      exact ⟨hsql, row, hcolumns⟩
    · intro p hp hc
      apply hkept
      rw [hnames p hp hc, unresolvedNames, if_neg harray]

/-- Orders with their numbers and owners, none of which has an alias. -/
def plainRequest (owner : MemberType) : Request where
  query := { dimensions := ["orders.id", "orders.owner_ids"] }
  tableSchemas :=
    [{ name := "orders"
       sql := "SELECT * FROM orders"
       dimensions :=
         [{ name := "id", sql := "orders.id", type := .number },
          { name := "owner_ids", sql := "orders.owner_ids", type := owner }] }]
  config :=
    { columnConfigs := [.ofType "orders.owner_ids" owner "customers" "id" ["name"]]
      tableSchemas :=
        [{ name := "customers"
           sql := "SELECT * FROM customers"
           dimensions := [{ name := "name", sql := "customers.name", type := .string }] }] }

/-- With one owner each, the orders keep the dotted name of their number. -/
theorem plain_dotted_name_kept :
    (projectedConfig (plainRequest .string)).columnConfigs ≠ [] ∧
    "orders.id" ∈ (plainRequest .string).projections ∧
    (projectedConfig (plainRequest .string)).columnConfig? "orders.id" = none ∧
    ∃ sql t, (compile (Compiler.sql .dotted).recorded .dotted (plainRequest .string)).run ((), []) =
        (.ok sql, t) ∧
      ∃ last earlier inner names row, t.2 = last :: earlier ∧
        sql = "SELECT * EXCLUDE (\"__row_id\") FROM (" ++ inner
          ++ ") AS __row_id_ordered ORDER BY \"__row_id\"" ∧
        last.Selects inner ((last.columns .dotted).map quoteIdentifier) ∧
        last.columns .dotted = (plainRequest .string).projections.flatMap names ++ [row] ∧
        names "orders.id" = ["orders.id"] := by
  have projected : (projectedConfig (plainRequest .string)).columnConfigs ≠ [] := by decide +kernel
  have hscalar : ¬ (projectedConfig (plainRequest .string)).hasArrayColumns = true := by
    decide +kernel
  have hproject : "orders.id" ∈ (plainRequest .string).projections := by decide +kernel
  have hconfig : (projectedConfig (plainRequest .string)).columnConfig? "orders.id" = none := by
    decide +kernel
  obtain ⟨sql, t, accepted⟩ := Calling.exists_run_ok (show ((compile
    (Compiler.sql .dotted).recorded .dotted (plainRequest .string)).run ((), [])).1.isOk = true by
      decide +kernel)
  obtain ⟨aliases, last, earlier, inner, names, -, ht, -, hselects, hcolumns, hnames⟩ :=
    dotted_name_kept_iff projected accepted
  rw [if_neg hscalar] at hcolumns
  obtain ⟨hsql, row, hcolumns⟩ := hcolumns
  have hkeeps : KeepsDots (plainRequest .string) aliases "orders.id" := by
    rw [KeepsDots, if_neg hscalar]
    decide +kernel
  exact ⟨projected, hproject, hconfig, sql, t, accepted, last, earlier, inner, names, row, ht, hsql,
    hselects, hcolumns, ((hnames _ hproject hconfig).2 (by decide)).2 hkeeps⟩

/-- With arrays of owners, the number of an order is put out under its safe key, although the base
query has it under its dotted name. -/
theorem array_resolution_loses_dots :
    ∃ sql, (compile (Compiler.sql .dotted) .dotted (plainRequest .stringArray)).run () =
        (.ok sql, ()) ∧
      "orders.id" ∈ (plainRequest .stringArray).projections ∧
      (projectedConfig (plainRequest .stringArray)).columnConfig? "orders.id" = none ∧
      ((findField (plainRequest .stringArray).tableSchemas "orders.id").map (·.alias)) = some none ∧
      (calls (compile (Compiler.sql .dotted).recorded .dotted (plainRequest .stringArray)) ()).map
          (·.columns .dotted) =
        [["orders.id", "orders.owner_ids"],
         ["orders.id", "orders.owner_ids", "__row_id"],
         ["orders.id", "orders__owner_ids__name", "__row_id"],
         ["__row_id", "orders.id", "orders__owner_ids__name"],
         ["orders__id", "orders__owner_ids__name"]] := by
  obtain ⟨sql, _, accepted⟩ := Calling.exists_run_ok (show ((compile (Compiler.sql .dotted) .dotted
    (plainRequest .stringArray)).run ()).1.isOk = true by decide +kernel)
  exact ⟨sql, accepted, by decide +kernel, by decide +kernel, by decide +kernel, by decide +kernel⟩

end Resolution
end SemanticLayer
