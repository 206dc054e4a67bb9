import SemanticLayer.Proofs.ArrayColumns
import SemanticLayer.Proofs.Calls
import SemanticLayer.Proofs.ConfigAgreement

/-!
# SemanticLayer.Proofs.Grouping

The call that puts the rows of one row together again.

Once the lookup tables are joined, a row of the base query has become a row for each element of its
arrays. The aggregate call groups these rows by the row id. It has only names to tell a column that
came out of an array from one that did not.

* `isResolvedArray_name`: the names tell them apart, unless another column has a name that starts
  like those of an array.
* `ResolvedRun.entries_resolved`: the columns that are there to be grouped, and where each is read.
* `compile_groups_by_row`: the aggregate call of every run that makes it, for every compiler.
-/

namespace SemanticLayer

/-- The name of a dimension with the expression behind it. -/
def Dimension.entry (d : Dimension) : String × String := (d.name, d.sql)

def Measure.entry (m : Measure) : String × String := (m.name, m.sql)

namespace Resolution

open Calling (Follows Records calls)
open Compiler (Answered)

/-! ## Arrays by their names -/

namespace OutputColumn

/-- A resolution column of an array of keys. -/
def isArray : OutputColumn → Bool
  | projected _ => false
  | lookedUp c _ => c.isArrayType

/-- Where an output column is read once the lookup tables are joined. -/
def reference (style : KeyStyle) (schemas : List TableSchema) (members : List String) :
    OutputColumn → String
  | projected member =>
    columnOf baseName (columnOfKey style schemas members (Member.safeKey member))
  | lookedUp c column => columnOf baseName (c.resolvedName column)

/-- The value of an output column for a group of rows. -/
def aggregation (x : OutputColumn) (reference : String) : String :=
  match x with
  | projected _ => "MAX(" ++ reference ++ ")"
  | lookedUp c _ =>
    if c.isArrayType then
      "COALESCE(ARRAY_AGG(DISTINCT " ++ reference ++ ") FILTER (WHERE " ++ reference
        ++ " IS NOT NULL), [])"
    else "MAX(" ++ reference ++ ")"

theorem aggregation_eq (x : OutputColumn) (reference : String) :
    x.aggregation reference = aggregationSql reference x.isArray := by
  cases x <;> rfl

end OutputColumn

/-- The names of the output columns are enough to group them: none is that of the row id, and only
those of arrays start like the columns of an array. -/
structure ArraysApart (config : ResolutionConfig) (projections : List String) : Prop where
  configs : (config.columnConfigs.map (·.safeName)).Nodup
  name_ne : ∀ x ∈ projections.flatMap (outputColumns config), x.name ≠ rowIdName
  scalars : ∀ x ∈ projections.flatMap (outputColumns config), x.isArray = false →
    ∀ c ∈ config.columnConfigs, c.isArrayType = true →
      ¬ c.safeName.toList ++ ['_', '_'] <+: x.name.toList

theorem isResolvedArray_iff {config : ResolutionConfig} {name : String} :
    isResolvedArray config name = true ↔
      ∃ c ∈ config.columnConfigs, c.isArrayType = true ∧
        c.safeName.toList ++ ['_', '_'] <+: name.toList := by
  simp [isResolvedArray, ResolutionConfig.arrayConfigs]

theorem isResolvedArray_safeKeyed (config : ResolutionConfig) (name : String) :
    isResolvedArray config.safeKeyed name = isResolvedArray config name := by
  apply isResolvedArray_congr
  refine ⟨?_, rfl, fun _ _ => rfl⟩
  rw [config.columnConfigs_safeKeyed, List.map_map]
  apply List.map_congr_left
  intro c _
  rw [Function.comp_apply, ColumnConfig.keyed, c.safeName_keyed]
  rfl

theorem resolvedName_startsWith (c : ColumnConfig) (column : String) :
    c.safeName.toList ++ ['_', '_'] <+: (c.resolvedName column).toList := by
  refine ⟨(Member.safeKey column).toList, ?_⟩
  simp [c.resolvedName_eq]

theorem mem_columnConfigs_of_lookedUp {config : ResolutionConfig} {projections : List String}
    {c : ColumnConfig} {column : String}
    (h : .lookedUp c column ∈ projections.flatMap (outputColumns config)) :
    c ∈ config.columnConfigs := by
  obtain ⟨p, _, hp⟩ := List.mem_flatMap.1 h
  cases hc : config.columnConfig? p with
  | none => simp [outputColumns_of_none hc] at hp
  | some c' =>
    rw [outputColumns_of_some hc] at hp
    obtain ⟨_, _, heq⟩ := List.mem_map.1 hp
    cases heq
    exact (ResolutionConfig.columnConfig?_eq_some hc).1

/-- The name of an output column starts like those of an array just if the column is of one. -/
theorem isResolvedArray_name {config : ResolutionConfig} {projections : List String}
    (apart : ArraysApart config projections) {x : OutputColumn}
    (hx : x ∈ projections.flatMap (outputColumns config)) :
    isResolvedArray config x.name = x.isArray := by
  cases harray : x.isArray with
  | false =>
    rw [Bool.eq_false_iff]
    intro hname
    obtain ⟨c, hc, hctype, hstarts⟩ := isResolvedArray_iff.1 hname
    exact apart.scalars x hx harray c hc hctype hstarts
  | true =>
    cases x with
    | projected member => cases harray
    | lookedUp c column =>
      exact isResolvedArray_iff.2
        ⟨c, mem_columnConfigs_of_lookedUp hx, harray, resolvedName_startsWith c column⟩

/-! ## The schema that is grouped -/

/-- Array resolution up to the schema whose rows are grouped: what each phase hands on, and the
state of the compiler after it. -/
structure ResolvedRun {σ : Type} (compiler : Compiler σ) (style : KeyStyle) (request : Request)
    (baseSql : String) (config : ResolutionConfig) (s : σ) where
  base : TableSchema
  unnested : TableSchema
  resolved : TableSchema
  afterUnnest : σ
  afterResolve : σ
  prepares : preparedBase style baseSql request config request.projections = .ok base
  unnests : (unnest compiler base config.safeKeyed request.context).run s =
    (.ok unnested, afterUnnest)
  resolves : (resolve compiler unnested config.safeKeyed (request.projections ++ [rowIdName])
    request.context).run afterUnnest = (.ok resolved, afterResolve)

/-- In a schema with the base headings, the key of a listed column leads to its output columns. -/
theorem entries_keyHeadings {style : KeyStyle} {schemas : List TableSchema} {members : List String}
    {hs : List Heading} (hbase : hs = members.map (baseHeading style schemas) ++ [.plain rowIdName])
    {p : String} (hp : p ∈ members ++ [rowIdName]) (config : ResolutionConfig) :
    (keyHeadings hs config.safeKeyed (Member.safeKey p)).map
        (fun x => (x.name, columnOf baseName x.column)) =
      (outputColumns config p).map fun x => (x.name, x.reference style schemas members) := by
  cases hc : config.columnConfig? p with
  | some c =>
    rw [keyHeadings_safeKeyed_of_some hc, outputColumns_of_some hc, List.map_map, List.map_map]
    rfl
  | none =>
    have hlisted : ∃ x ∈ hs, x.name = Member.safeKey p := by
      rw [hbase]
      rcases List.mem_append.1 hp with hp | hp
      · exact ⟨_, List.mem_append_left _ (List.mem_map_of_mem hp), rfl⟩
      · refine ⟨.plain rowIdName, by simp, ?_⟩
        rw [List.mem_singleton.1 hp, safeKey_rowIdName]
        rfl
    -- Members may share a safe key: the heading that is found is that of the first one.
    obtain ⟨x, hfind⟩ : ∃ x, hs.find? (·.name = Member.safeKey p) = some x := by
      rw [← Option.isSome_iff_exists]
      simpa using hlisted
    have hname : x.name = Member.safeKey p := by simpa using List.find?_some hfind
    have hcolumn := alias_find?_baseHeadings style schemas members (Member.safeKey p)
    rw [← hbase, hfind, Option.bind_some] at hcolumn
    rw [keyHeadings_safeKeyed_of_none hc, hfind, outputColumns_of_none hc]
    simp [OutputColumn.name, OutputColumn.reference, Heading.column, hname, hcolumn]

namespace ResolvedRun

variable {σ : Type} {compiler : Compiler σ} {style : KeyStyle} {request : Request}
  {baseSql : String} {config : ResolutionConfig} {s : σ}

theorem entries_of_outputColumns
    (run : ResolvedRun compiler style request baseSql config s)
    (hdistinct : (config.columnConfigs.map (·.safeName)).Nodup) :
    run.resolved.name = baseName ∧ run.resolved.dimensions.map Dimension.entry =
      ((request.projections ++ [rowIdName]).flatMap (outputColumns config)).map fun x =>
        (x.name, x.reference style request.tableSchemas request.projections) := by
  have isBase := preparedBase_ok run.prepares
  obtain ⟨sql, -, hunnested⟩ := unnest_ok run.unnests
  have hname : run.unnested.name = baseName := by
    rw [hunnested]
    exact isBase.name
  have hheadings : run.unnested.headings =
      request.projections.map (baseHeading style request.tableSchemas) ++ [.plain rowIdName] := by
    rw [hunnested, headings_wrapperSchema_of_no_measures isBase.measures, isBase.headings]
  have hmeasures : run.unnested.measures = [] := by
    rw [hunnested]
    rfl
  have hkeyed := config.nodup_safeKeyed hdistinct
  obtain ⟨hresolved, hreads⟩ := readsHeadings_resolve hname hkeyed run.resolves
  refine ⟨hresolved, ?_⟩
  calc run.resolved.dimensions.map Dimension.entry
      = run.resolved.headings.map fun x => (x.name, columnOf baseName x.column) := by
        rw [TableSchema.headings, List.map_map]
        apply List.map_congr_left
        intro d hd
        rw [Dimension.entry, hreads d hd]
        rfl
    _ = _ := by
        rw [headings_resolve hmeasures hkeyed run.resolves, List.flatMap_map, List.map_flatMap,
          List.map_flatMap]
        apply List.flatMap_congr
        intro p hp
        exact entries_keyHeadings hheadings hp config

/-- If the rows can be grouped, then the resolved schema lists the output columns, and the row id
after them. -/
theorem entries_resolved (run : ResolvedRun compiler style request baseSql config s)
    (apart : ArraysApart config request.projections) {rowId : Dimension}
    (hrow : run.resolved.dimension? rowIdName = some rowId) :
    run.resolved.dimensions.map Dimension.entry =
      (request.projections.flatMap (outputColumns config)).map (fun x =>
        (x.name, x.reference style request.tableSchemas request.projections)) ++
          [(rowIdName, columnOf baseName rowIdName)] := by
  obtain ⟨-, hentries⟩ := run.entries_of_outputColumns apart.configs
  obtain ⟨hmem, hname⟩ := TableSchema.dimension?_eq_some hrow
  have hentry : rowId.entry ∈ run.resolved.dimensions.map Dimension.entry :=
    List.mem_map_of_mem hmem
  rw [hentries] at hentry
  obtain ⟨x, hx, hxentry⟩ := List.mem_map.1 hentry
  -- The row id is still there, so no lookup table has taken its place.
  have hnone := columnConfig?_rowId_of_name apart.name_ne hx
    ((congrArg Prod.fst hxentry).trans hname)
  have hcolumn : columnOfKey style request.tableSchemas request.projections rowIdName =
      rowIdName := by
    have hfind : request.projections.find? (fun m => Member.safeKey m = rowIdName) = none := by
      apply List.find?_eq_none.2
      intro p hp hkey
      exact safeKey_ne_rowIdName apart.name_ne hnone hp (of_decide_eq_true hkey)
    rw [columnOfKey, hfind]
    rfl
  rw [hentries, List.flatMap_append, List.map_append, List.flatMap_singleton,
    outputColumns_of_none hnone]
  simp [OutputColumn.name, OutputColumn.reference, hcolumn]

end ResolvedRun

/-! ## Grouping by row -/

/-- The call groups the rows of `resolved` by the row id and has a measure for each of the columns,
over its own reference. -/
structure GroupsByRow (resolved : TableSchema) (columns : List OutputColumn)
    (reference : OutputColumn → String) (schema : TableSchema) (call : Call) : Prop where
  query : call.query =
    { dimensions := [Member.qualify baseName rowIdName]
      measures := columns.map fun x => Member.qualify baseName x.name }
  schemas : call.schemas = [schema]
  name : schema.name = baseName
  sql : schema.sql = resolved.sql
  dimensions : schema.dimensions.map Dimension.entry = [(rowIdName, columnOf baseName rowIdName)]
  measures : schema.measures.map Measure.entry =
    columns.map fun x => (x.name, x.aggregation (reference x))

theorem entries_grouped (config : ResolutionConfig) (s : TableSchema) (rowId : Dimension) :
    (grouped config s rowId).measures.map Measure.entry =
      ((s.dimensions.map Dimension.entry).filter (·.1 ≠ rowId.name)).map fun e =>
        (e.1, aggregationSql e.2 (isResolvedArray config e.1)) := by
  rw [List.filter_map, grouped, List.map_map, List.map_map]
  rfl

theorem groupedQuery_eq (s : TableSchema) :
    groupedQuery s =
      { dimensions := (s.dimensions.map Dimension.entry).map fun e => Member.qualify s.name e.1
        measures := (s.measures.map Measure.entry).map fun e => Member.qualify s.name e.1 } := by
  rw [groupedQuery, allDimensions, List.map_map, List.map_map]
  rfl

namespace ResolvedRun

variable {σ : Type} {compiler : Compiler σ} {style : KeyStyle} {request : Request}
  {baseSql : String} {config : ResolutionConfig} {s : σ} {rowId : Dimension}

theorem rowId_entry (run : ResolvedRun compiler style request baseSql config s)
    (apart : ArraysApart config request.projections)
    (hrow : run.resolved.dimension? rowIdName = some rowId) :
    rowId.entry = (rowIdName, columnOf baseName rowIdName) := by
  obtain ⟨hmem, hname⟩ := TableSchema.dimension?_eq_some hrow
  have hentry : rowId.entry ∈ run.resolved.dimensions.map Dimension.entry :=
    List.mem_map_of_mem hmem
  rw [run.entries_resolved apart hrow] at hentry
  rcases List.mem_append.1 hentry with hentry | hentry
  · obtain ⟨x, hx, hxentry⟩ := List.mem_map.1 hentry
    exact absurd ((congrArg Prod.fst hxentry).trans hname) (apart.name_ne x hx)
  · exact List.mem_singleton.1 hentry

theorem measures_grouped (run : ResolvedRun compiler style request baseSql config s)
    (apart : ArraysApart config request.projections)
    (hrow : run.resolved.dimension? rowIdName = some rowId) :
    (grouped config.safeKeyed run.resolved rowId).measures.map Measure.entry =
      (request.projections.flatMap (outputColumns config)).map fun x =>
        (x.name, x.aggregation (x.reference style request.tableSchemas request.projections)) := by
  have hrowName := (TableSchema.dimension?_eq_some hrow).2
  have hlast : [(rowIdName, columnOf baseName rowIdName)].filter (·.1 ≠ rowIdName) = [] := by
    simp
  rw [entries_grouped, run.entries_resolved apart hrow, hrowName, List.filter_append, hlast,
    List.append_nil, List.filter_eq_self.2, List.map_map]
  · apply List.map_congr_left
    intro x hx
    rw [Function.comp_apply, isResolvedArray_safeKeyed, isResolvedArray_name apart hx,
      x.aggregation_eq]
  · intro e he
    obtain ⟨x, hx, rfl⟩ := List.mem_map.1 he
    simpa using apart.name_ne x hx

theorem groupsByRow (run : ResolvedRun compiler style request baseSql config s)
    (apart : ArraysApart config request.projections)
    (hrow : run.resolved.dimension? rowIdName = some rowId) :
    GroupsByRow run.resolved (request.projections.flatMap (outputColumns config))
      (·.reference style request.tableSchemas request.projections)
      (grouped config.safeKeyed run.resolved rowId)
      (aggregateCall config.safeKeyed run.resolved rowId request.context) := by
  have hname : (grouped config.safeKeyed run.resolved rowId).name = baseName :=
    (run.entries_of_outputColumns apart.configs).1
  have hdimensions : (grouped config.safeKeyed run.resolved rowId).dimensions.map Dimension.entry =
      [(rowIdName, columnOf baseName rowIdName)] :=
    congrArg (fun entry => [entry]) (run.rowId_entry apart hrow)
  have hmeasures := run.measures_grouped apart hrow
  refine ⟨?_, rfl, hname, rfl, hdimensions, hmeasures⟩
  rw [aggregateCall, groupedQuery_eq, hmeasures, hdimensions, hname, List.map_map]
  rfl

end ResolvedRun

/-! ## The call -/

section Calls

variable {σ : Type} {compiler : Compiler σ} {style : KeyStyle} {request : Request}
  {config : ResolutionConfig} {baseSql : String} {s : σ} {a : Answered}

theorem aggregate_call {β : Type} {resolved : TableSchema} {context : Option ContextParams}
    {f : TableSchema → Calling (σ × List Answered) β} (hf : ∀ next, Records (f next))
    (h : (calls (aggregate compiler.recorded resolved config context >>= f) s)[0]? = some a) :
    ∃ rowId, resolved.dimension? rowIdName = some rowId ∧
      a.call = aggregateCall config resolved rowId context := by
  rw [aggregate] at h
  split at h
  · -- Without a row id nothing is called.
    cases h
  · rename_i rowId hrow
    simp only [bind_assoc, pure_bind] at h
    exact ⟨rowId, hrow, Calling.calls_bind_zero (fun _ => hf _) h⟩

/-- The third call of array resolution groups the rows of the resolved schema. -/
theorem resolveArrays_aggregateCall
    (h : (calls (resolveArrays compiler.recorded style request baseSql config) s)[2]? = some a) :
    ∃ (run : ResolvedRun compiler style request baseSql config s) (rowId : Dimension),
      run.resolved.dimension? rowIdName = some rowId ∧
      a.call = aggregateCall config.safeKeyed run.resolved rowId request.context := by
  obtain ⟨base, sql, s₁, hbase, hunnests, h⟩ := resolveArrays_call_succ h
  simp only [resolve, bind_assoc, pure_bind] at h
  obtain ⟨lookups, hlookups, h⟩ := Calling.calls_ofExcept_bind h
  obtain ⟨joined, s₂, hcall, h⟩ := Calling.calls_bind_succ (fun _ =>
    (Follows.bind (.ofExcept _) fun _ => follows_regroup compiler _ _ _).records) h
  obtain ⟨dimensions, hdimensions, h⟩ := Calling.calls_ofExcept_bind h
  have hresolves : (resolve compiler (wrapperSchema sql base) config.safeKeyed
      (request.projections ++ [rowIdName]) request.context).run s₁ = (.ok _, s₂) :=
    Calling.run_ofExcept_bind_ok.2 ⟨lookups, hlookups,
      Calling.run_bind_ok.2 ⟨joined, s₂, hcall,
        Calling.run_ofExcept_bind_ok.2 ⟨dimensions, hdimensions, rfl⟩⟩⟩
  obtain ⟨rowId, hrow, hgroups⟩ := aggregate_call (fun aggregated =>
    (follows_restoreAliases compiler aggregated _ _ _).records) h
  exact ⟨⟨base, _, _, s₁, s₂, hbase, hunnests, hresolves⟩, rowId, hrow, hgroups⟩

/-- Scalar resolution makes no second call. -/
theorem not_resolveScalars_succ {k : Nat}
    (h : (calls (resolveScalars compiler.recorded style request baseSql config) s)[k + 1]? =
      some a) : False := by
  rw [resolveScalars] at h
  obtain ⟨base, -, h⟩ := Calling.calls_ofExcept_bind h
  obtain ⟨aliases, -, h⟩ := Calling.calls_ofExcept_bind h
  obtain ⟨lookups, -, h⟩ := Calling.calls_ofExcept_bind h
  obtain ⟨sql, s₁, -, h⟩ := Calling.calls_bind_succ (fun _ _ _ => rfl) h
  cases h

end Calls

/-- Whenever resolution makes the aggregate call, which is its fourth, the call groups by the row id
alone, and has every other column of the resolved schema as a measure, in the order in which they
are listed there: a column of an array with its distinct values, any other with its only value. -/
theorem compile_groups_by_row {σ : Type} {compiler : Compiler σ} {style : KeyStyle}
    {request : Request} {s : σ} {a : Answered}
    (apart : ArraysApart (projectedConfig request) request.projections)
    (made : (calls (compile compiler.recorded style request) s)[3]? = some a) :
    ∃ (baseSql : String) (s₁ : σ) (run : ResolvedRun compiler style request baseSql
        (projectedConfig request) s₁) (schema : TableSchema),
      (compiler (baseCall request)).run s = (.ok baseSql, s₁) ∧
      run.resolved.dimensions.map Dimension.entry =
        (request.projections.flatMap (outputColumns (projectedConfig request))).map (fun x =>
          (x.name, x.reference style request.tableSchemas request.projections)) ++
            [(rowIdName, columnOf baseName rowIdName)] ∧
      GroupsByRow run.resolved
        (request.projections.flatMap (outputColumns (projectedConfig request)))
        (·.reference style request.tableSchemas request.projections) schema a.call := by
  obtain ⟨baseSql, s₁, hbase, hne, made⟩ := compile_call_succ made
  by_cases harray : (projectedConfig request).hasArrayColumns = true
  · rw [resolveProjected_arrays hne harray] at made
    obtain ⟨run, rowId, hrow, hcall⟩ := resolveArrays_aggregateCall made
    rw [hcall]
    exact ⟨baseSql, s₁, run, _, hbase, run.entries_resolved apart hrow, run.groupsByRow apart hrow⟩
  · rw [resolveProjected_scalars hne harray] at made
    exact (not_resolveScalars_succ made).elim

/-- Orders whose owners are an array, next to two columns with names that start like that of the
array: an owner to be looked up, and a number. -/
def ownersRequest : Request where
  query := { dimensions := ["orders.owner_id", "orders.owner", "orders.owner_ids"] }
  tableSchemas :=
    [{ name := "orders"
       sql := "SELECT * FROM orders"
       dimensions :=
         [{ name := "owner_id", sql := "orders.owner_id", type := .number },
          { name := "owner", sql := "orders.owner", type := .stringArray,
            «alias» := some "Owner" },
          { name := "owner_ids", sql := "orders.owner_ids", type := .number,
            «alias» := some "Owners" }] }]
  config :=
    { columnConfigs :=
        [.ofType "orders.owner" .stringArray "customers" "id" ["name", "email"],
         .ofType "orders.owner_id" .number "customers" "id" ["name"]]
      tableSchemas :=
        [{ name := "customers"
           sql := "SELECT * FROM customers"
           dimensions :=
             [{ name := "name", sql := "customers.name", type := .string },
              { name := "email", sql := "customers.email", type := .string }] }] }

theorem owners_compile_groups_by_row :
    ∃ a, (calls (compile (Compiler.always "SELECT 1").recorded .dotted ownersRequest) ())[3]? =
        some a ∧
      a.call.query.dimensions = ["__base_query.__row_id"] ∧
      a.call.query.measures = ["__base_query.orders__owner_id__name",
        "__base_query.orders__owner__name", "__base_query.orders__owner__email",
        "__base_query.orders__owner_ids"] ∧
      ∃ schema, a.call.schemas = [schema] ∧
        schema.dimensions.map Dimension.entry = [("__row_id", "__base_query.\"__row_id\"")] ∧
        schema.measures.map Measure.entry =
          [("orders__owner_id__name", "MAX(__base_query.\"orders__owner_id__name\")"),
           ("orders__owner__name", "COALESCE(ARRAY_AGG(DISTINCT "
             ++ "__base_query.\"orders__owner__name\") FILTER (WHERE "
             ++ "__base_query.\"orders__owner__name\" IS NOT NULL), [])"),
           ("orders__owner__email", "COALESCE(ARRAY_AGG(DISTINCT "
             ++ "__base_query.\"orders__owner__email\") FILTER (WHERE "
             ++ "__base_query.\"orders__owner__email\" IS NOT NULL), [])"),
           ("orders__owner_ids", "MAX(__base_query.\"Owners\")")] := by
  obtain ⟨a, made⟩ := Option.isSome_iff_exists.1 (show ((calls (compile
    (Compiler.always "SELECT 1").recorded .dotted ownersRequest) ())[3]?).isSome = true by
      decide +kernel)
  obtain ⟨_, _, _, schema, -, -, groups⟩ := compile_groups_by_row
    ⟨by decide +kernel, by decide +kernel, by decide +kernel⟩ made
  refine ⟨a, made, ?_, ?_, schema, groups.schemas, ?_, ?_⟩
  · rw [groups.query]
    decide +kernel
  · rw [groups.query]
    decide +kernel
  · rw [groups.dimensions]
    decide +kernel
  · rw [groups.measures]
    decide +kernel

end Resolution
end SemanticLayer
