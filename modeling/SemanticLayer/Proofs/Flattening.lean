import SemanticLayer.Proofs.CallProtocol
import SemanticLayer.Proofs.DottedNames
import SemanticLayer.Proofs.Grouping
import SemanticLayer.Proofs.Overrides
import SemanticLayer.Proofs.References

/-!
# SemanticLayer.Proofs.Flattening

Arrays that are taken apart and put together again.

The second call of array resolution unnests the arrays of keys, and the fourth one collects what
their elements were resolved to. The one decides by the type of the column, which the last override
of the column may have changed, and by the marks of the configs. The other has the marks alone, and
finds them by the names of the columns.

* `dimension?_preparedBase`: the type that a column of the base schema has.
* `unnestsColumn_iff`, `collectsColumn_iff`: how each of the two calls decides.
* `unnested_iff_collected`: when they agree.
-/

namespace SemanticLayer

/-! ## Types of overridden columns -/

/-- The type of a field after the overrides. The last one of the field decides. -/
def overriddenType (overrides : List SqlOverride) (field : String) (type : MemberType) :
    MemberType :=
  ((overrides.reverse.find? (·.fieldName = field)).map (·.type)).getD type

theorem overriddenType_cons (o : SqlOverride) (rest : List SqlOverride) (field : String)
    (type : MemberType) :
    overriddenType (o :: rest) field type =
      overriddenType rest field (if o.fieldName = field then o.type else type) := by
  rw [overriddenType, overriddenType, List.reverse_cons, List.find?_append]
  cases rest.reverse.find? (·.fieldName = field) with
  | some later => rfl
  | none =>
    by_cases hfield : o.fieldName = field
    · simp [hfield]
    · simp [hfield]

namespace SqlOverride

theorem modifier_onDimension (o : SqlOverride) (d : Dimension) :
    (o.onDimension d).modifier = d.modifier := by
  rw [onDimension]
  split <;> rfl

theorem type_onDimension (o : SqlOverride) (d : Dimension) :
    (o.onDimension d).type = if o.fieldName = d.name then o.type else d.type := by
  rw [onDimension]
  by_cases hname : d.name = o.fieldName
  · rw [if_pos hname, if_pos hname.symm]
  · rw [if_neg hname, if_neg (Ne.symm hname)]

theorem dimension?_apply {s t : TableSchema} {o : SqlOverride} (h : o.apply s = .ok t)
    (name : String) : t.dimension? name = (s.dimension? name).map o.onDimension := by
  rw [SqlOverride.apply] at h
  split at h
  · cases h
    simp only [TableSchema.dimension?, List.find?_map]
    congr 2
    funext d
    rw [Function.comp_apply, o.name_onDimension]
  · cases h

end SqlOverride

/-- Overrides leave a dimension its name and its modifier, and decide its type. -/
theorem dimension?_applyOverrides {overrides : List SqlOverride} {s t : TableSchema}
    (h : applyOverrides s overrides = .ok t) {name : String} {d : Dimension}
    (hd : s.dimension? name = some d) :
    ∃ e, t.dimension? name = some e ∧ e.modifier = d.modifier ∧
      e.type = overriddenType overrides name d.type := by
  induction overrides generalizing s d with
  | nil =>
    cases h
    exact ⟨d, hd, rfl, rfl⟩
  | cons o rest ih =>
    obtain ⟨next, hnext, h⟩ := applyOverrides_cons_ok.1 h
    have hname := (TableSchema.dimension?_eq_some hd).2
    have hstep : next.dimension? name = some (o.onDimension d) := by
      rw [SqlOverride.dimension?_apply hnext, hd, Option.map_some]
    obtain ⟨e, he, hmodifier, htype⟩ := ih h hstep
    refine ⟨e, he, hmodifier.trans (o.modifier_onDimension d), ?_⟩
    rw [htype, o.type_onDimension, overriddenType_cons, hname]

namespace Resolution

open Calling (calls)
open Compiler (Answered)

/-- The type of the column with the given safe key: that of the first projection with this key,
after the overrides. -/
def columnType (request : Request) (key : String) : Option MemberType :=
  ((request.projections.find? fun p => Member.safeKey p = key).bind
    (findField request.tableSchemas)).map fun field =>
      overriddenType request.config.overrides key field.type

/-- The base schema has a column for the key of a member, of the overridden type and without a
modifier. The row id comes after it. -/
theorem dimension?_preparedBase {style : KeyStyle} {baseSql : String} {request : Request}
    {config : ResolutionConfig} {members : List String} {base : TableSchema} {key m : String}
    (h : preparedBase style baseSql request config members = .ok base)
    (hm : members.find? (fun p => Member.safeKey p = key) = some m) :
    ∃ field d, findField request.tableSchemas m = some field ∧ base.dimension? key = some d ∧
      d.modifier = none ∧ d.type = overriddenType config.overrides key field.type := by
  rw [preparedBase] at h
  obtain ⟨plain, hplain, h⟩ := bind_eq_ok.1 h
  obtain ⟨overridden, hover, h⟩ := bind_eq_ok.1 h
  cases h
  rw [baseSchema] at hplain
  obtain ⟨dimensions, hdims, hplain⟩ := bind_eq_ok.1 hplain
  cases hplain
  have hkeys : ∀ p ∈ members, ∀ d, baseDimension style request.tableSchemas p = .ok d →
      decide (d.name = key) = decide (Member.safeKey p = key) := by
    intro p _ d hd
    obtain ⟨_, _, rfl⟩ := baseDimension_ok hd
    rfl
  obtain ⟨d, hfind, hd⟩ := find?_of_mapM_ok hdims hkeys hm
  obtain ⟨e, he, hmodifier, htype⟩ := dimension?_applyOverrides hover hfind
  obtain ⟨field, hfield, rfl⟩ := baseDimension_ok hd
  refine ⟨field, e, hfield, ?_, hmodifier, htype⟩
  rw [TableSchema.dimension?] at he
  rw [TableSchema.dimension?, withRowId, TableSchema.withDimension, List.find?_append, he]
  rfl

/-! ## Unnesting -/

/-- A config of the column with the given safe name marks it as an array. -/
def MarksArray (config : ResolutionConfig) (key : String) : Prop :=
  ∃ a ∈ config.columnConfigs, a.isArrayType = true ∧ a.safeName = key

theorem marksArray_safeKeyed {config : ResolutionConfig} {key : String} :
    MarksArray config.safeKeyed key ↔ MarksArray config key := by
  constructor
  · rintro ⟨a, ha, harray, hname⟩
    obtain ⟨c, hc, rfl⟩ := List.mem_map.1 ha
    exact ⟨c, hc, harray, c.safeName_keyed.symm.trans hname⟩
  · rintro ⟨c, hc, harray, hname⟩
    exact ⟨c.keyed, List.mem_map_of_mem hc, harray, c.safeName_keyed.trans hname⟩

/-- The call reads the column of the base schema through `unnest(...)`. -/
def UnnestsColumn (base : TableSchema) (call : Call) (key : String) : Prop :=
  ∃ schema d e, call.schemas = [schema] ∧ base.dimension? key = some d ∧
    schema.dimension? key = some e ∧ e.sql = flattenSql d.sql

theorem length_lt_flattenSql (expr : String) :
    expr.toList.length < (flattenSql expr).toList.length := by
  simp only [flattenSql_eq, String.toList_append, List.length_append]
  have hword : 0 < "unnest(CASE WHEN ".toList.length := by decide
  omega

theorem flattenSql_ne (expr : String) : flattenSql expr ≠ expr := by
  intro h
  have hlength := length_lt_flattenSql expr
  rw [h] at hlength
  exact Nat.lt_irrefl _ hlength

/-- A dimension as the marks of a config leave it. -/
def flag (config : ResolutionConfig) (d : Dimension) : Dimension :=
  if d.name ∈ config.arrayConfigs.map (·.safeName) then
    { d with modifier := some { d.modifier.getD {} with flattenArray := true } }
  else d

theorem name_flatten_flag (config : ResolutionConfig) (d : Dimension) :
    (flatten (flag config d)).name = d.name := by
  rw [flatten, flag]
  split <;> split <;> rfl

theorem dimension?_flattened (config : ResolutionConfig) (s : TableSchema) (name : String) :
    (flattened config s).dimension? name =
      (s.dimension? name).map fun d => flatten (flag config d) := by
  have hdimensions : (flattened config s).dimensions =
      s.dimensions.map fun d => flatten (flag config d) := by
    rw [flattened, flagArrays, List.map_map]
    rfl
  rw [TableSchema.dimension?, hdimensions, List.find?_map]
  congr 2
  funext d
  rw [Function.comp_apply, name_flatten_flag]

theorem mem_arrayNames {config : ResolutionConfig} {key : String} :
    key ∈ config.arrayConfigs.map (·.safeName) ↔ MarksArray config key := by
  simp [ResolutionConfig.arrayConfigs, MarksArray, and_assoc]

theorem sql_flatten_flag_of_marked {config : ResolutionConfig} {d : Dimension}
    (harray : d.type.isArray = true) (hmarks : MarksArray config d.name) :
    (flatten (flag config d)).sql = flattenSql d.sql := by
  rw [flag, if_pos (mem_arrayNames.2 hmarks), flatten, if_pos]
  simp [Dimension.shouldFlattenArray, harray]

theorem sql_flatten_flag_of_not {config : ResolutionConfig} {d : Dimension}
    (hmodifier : d.modifier = none) (h : ¬ (d.type.isArray = true ∧ MarksArray config d.name)) :
    (flatten (flag config d)).sql = d.sql := by
  by_cases hmarks : MarksArray config d.name
  · have harray : ¬ d.type.isArray = true := fun harray => h ⟨harray, hmarks⟩
    rw [flag, if_pos (mem_arrayNames.2 hmarks), flatten, if_neg]
    simp [Dimension.shouldFlattenArray, harray]
  · rw [flag, if_neg (fun hmem => hmarks (mem_arrayNames.1 hmem)), flatten, if_neg]
    simp [Dimension.shouldFlattenArray, hmodifier]

/-- A column is unnested if it holds arrays and is marked as one that does. -/
theorem unnestsColumn_iff {config : ResolutionConfig} {base : TableSchema} {key : String}
    {d : Dimension} {context : Option ContextParams} (hd : base.dimension? key = some d)
    (hmodifier : d.modifier = none) :
    UnnestsColumn base (unnestCall base config context) key ↔
      d.type.isArray = true ∧ MarksArray config key := by
  have hname := (TableSchema.dimension?_eq_some hd).2
  have he : (flattened config base).dimension? key = some (flatten (flag config d)) := by
    rw [dimension?_flattened, hd, Option.map_some]
  constructor
  · rintro ⟨schema, d', e, hschema, hd', he', hsql⟩
    cases hschema
    cases hd.symm.trans hd'
    cases he.symm.trans he'
    by_contra hnot
    rw [← hname] at hnot
    rw [sql_flatten_flag_of_not hmodifier hnot] at hsql
    exact flattenSql_ne d.sql hsql.symm
  · rintro ⟨harray, hmarks⟩
    exact ⟨_, d, _, rfl, hd, he, sql_flatten_flag_of_marked harray (hname ▸ hmarks)⟩

/-! ## Collecting -/

/-- The call has a measure of the given name. -/
def GroupsColumn (call : Call) (name : String) : Prop :=
  ∃ schema, call.schemas = [schema] ∧ ∃ m ∈ schema.measures, m.name = name

/-- The call has a measure of the given name that collects the values of an expression with
`ARRAY_AGG`. -/
def CollectsColumn (call : Call) (name : String) : Prop :=
  ∃ schema, call.schemas = [schema] ∧ ∃ m ∈ schema.measures, m.name = name ∧
    ∃ expr, m.sql = aggregationSql expr true

theorem aggregationSql_true_ne (expr other : String) :
    aggregationSql expr true ≠ aggregationSql other false := by
  intro h
  have hhead := congrArg (·.toList.head?) h
  simp [aggregationSql] at hhead

/-- A column is collected if its name starts like those of an array. -/
theorem collectsColumn_iff {config : ResolutionConfig} {resolved : TableSchema} {rowId : Dimension}
    {context : Option ContextParams} {name : String} :
    CollectsColumn (aggregateCall config resolved rowId context) name ↔
      GroupsColumn (aggregateCall config resolved rowId context) name ∧
        isResolvedArray config name = true := by
  constructor
  · rintro ⟨schema, hschema, m, hm, hname, expr, hsql⟩
    refine ⟨⟨schema, hschema, m, hm, hname⟩, ?_⟩
    cases hschema
    obtain ⟨d, -, rfl⟩ := List.mem_map.1 hm
    rw [← hname]
    by_contra hnot
    rw [Bool.not_eq_true] at hnot
    have hmax : (aggregateMeasure config d).sql = aggregationSql d.sql false :=
      congrArg (aggregationSql d.sql) hnot
    exact aggregationSql_true_ne expr d.sql (hsql.symm.trans hmax)
  · rintro ⟨⟨schema, hschema, m, hm, hname⟩, harray⟩
    refine ⟨schema, hschema, m, hm, hname, ?_⟩
    cases hschema
    obtain ⟨d, -, rfl⟩ := List.mem_map.1 hm
    rw [← hname] at harray
    exact ⟨d.sql, congrArg (aggregationSql d.sql) harray⟩

/-- No later config is for a column of the same safe name. -/
def IsLastConfig (config : ResolutionConfig) (c : ColumnConfig) : Prop :=
  config.columnConfigs.reverse.find? (·.safeName = c.safeName) = some c

/-- The columns of a config are in the joined schema, if no later config takes its place. -/
theorem exists_resolved {σ : Type} {compiler : Compiler σ} {base next : TableSchema}
    {config : ResolutionConfig} {projections : List String} {context : Option ContextParams}
    {s t : σ} (h : (resolve compiler base config projections context).run s = (.ok next, t))
    {c : ColumnConfig} (hlast : IsLastConfig config c) {p : String} (hp : p ∈ projections)
    (hkey : c.safeName = Member.safeKey p) {column : String}
    (hcolumn : column ∈ c.resolutionColumns) :
    ∃ d ∈ next.dimensions, d.name = c.resolvedName column := by
  obtain ⟨lookups, sql, dimensions, hl, -, hd, rfl⟩ := resolve_ok h
  have hnames : ∀ a ∈ config.columnConfigs.reverse, ∀ lookup, lookupSchema config a = .ok lookup →
      decide (lookup.name = c.safeName) = decide (a.safeName = c.safeName) := by
    intro a _ lookup hlookup
    rw [name_of_lookupSchema hlookup]
  obtain ⟨lookup, hfind, hlookup⟩ := find?_of_mapM_ok (reverse_of_mapM_ok hl) hnames hlast
  obtain ⟨ds, hds, hok⟩ := exists_of_mapM_ok hd (List.mem_map_of_mem hp)
  rw [resolvedDimensions, ← hkey, hfind] at hok
  cases hok
  have hheading : Heading.plain (c.resolvedName column) ∈ lookup.headings := by
    rw [headings_of_lookupSchema hlookup]
    exact List.mem_map_of_mem hcolumn
  obtain ⟨d, hmem, heading⟩ := List.mem_map.1 hheading
  exact ⟨_, List.mem_flatten.2 ⟨_, hds, List.mem_map_of_mem hmem⟩, congrArg Heading.name heading⟩

theorem isLastConfig_safeKeyed {config : ResolutionConfig} {c : ColumnConfig}
    (h : IsLastConfig config c) : IsLastConfig config.safeKeyed c.keyed := by
  rw [IsLastConfig] at h
  rw [IsLastConfig, config.columnConfigs_safeKeyed, ← List.map_reverse, List.find?_map]
  simp only [Function.comp_def, ColumnConfig.safeName_keyed, h, Option.map_some]

theorem ArrayRun.groupsColumn {σ : Type} {style compilerStyle : KeyStyle} {request : Request}
    {baseSql sql : String} {config : ResolutionConfig} {s t : σ × List Answered}
    (run : ArrayRun (Compiler.sql compilerStyle).recorded style request baseSql config s sql t)
    {rowId : Dimension} (hrow : run.resolved.dimension? rowIdName = some rowId) {c : ColumnConfig}
    (hc : c ∈ config.columnConfigs) (hlast : IsLastConfig config c)
    (hprojected : IsProjected request c) {column : String}
    (hcolumn : column ∈ c.resolutionColumns) :
    GroupsColumn (aggregateCall config.safeKeyed run.resolved rowId request.context)
      (c.resolvedName column) := by
  obtain ⟨p, hp, hkey⟩ := hprojected
  obtain ⟨d, hd, hname⟩ := exists_resolved run.resolves (isLastConfig_safeKeyed hlast)
    (List.mem_append_left _ hp) (c.safeName_keyed.trans hkey) hcolumn
  rw [c.resolvedName_keyed] at hname
  have hne : d.name ≠ rowId.name := by
    rw [hname, (TableSchema.dimension?_eq_some hrow).2]
    exact fun he => run.safeName_ne_empty hc (safeName_of_resolvedName he)
  refine ⟨_, rfl, aggregateMeasure config.safeKeyed d, ?_, hname⟩
  exact List.mem_map_of_mem (List.mem_filter.2 ⟨hd, decide_eq_true hne⟩)

/-! ## Both calls -/

/-- The column with the given safe key holds arrays. -/
def HoldsArrays (request : Request) (key : String) : Prop :=
  ∃ type, columnType request key = some type ∧ type.isArray = true

/-- How the column of a config fares in the call that unnests and in the one that collects. -/
structure Flattening (request : Request) (base : TableSchema) (unnesting aggregating : Call)
    (c : ColumnConfig) : Prop where
  unnested : UnnestsColumn base unnesting c.safeName ↔
    HoldsArrays request c.safeName ∧ MarksArray (projectedConfig request) c.safeName
  collected : ∀ column, CollectsColumn aggregating (c.resolvedName column) ↔
    GroupsColumn aggregating (c.resolvedName column) ∧
      ∃ a ∈ (projectedConfig request).columnConfigs, a.isArrayType = true ∧
        a.safeName.toList ++ ['_', '_'] <+: (c.resolvedName column).toList
  grouped : IsLastConfig (projectedConfig request) c → ∀ column ∈ c.resolutionColumns,
    GroupsColumn aggregating (c.resolvedName column)

/-- No resolved column has a name that starts like those of the array of another column. -/
def NamedApart (config : ResolutionConfig) (c : ColumnConfig) : Prop :=
  ∀ a ∈ config.columnConfigs, a.isArrayType = true → a.safeName ≠ c.safeName →
    ∀ column ∈ c.resolutionColumns,
      ¬ a.safeName.toList ++ ['_', '_'] <+: (c.resolvedName column).toList

namespace Flattening

variable {request : Request} {base : TableSchema} {unnesting aggregating : Call}
  {c : ColumnConfig}

theorem collected_of_marked (h : Flattening request base unnesting aggregating c)
    (hlast : IsLastConfig (projectedConfig request) c)
    (hmarks : MarksArray (projectedConfig request) c.safeName) :
    ∀ column ∈ c.resolutionColumns, CollectsColumn aggregating (c.resolvedName column) := by
  intro column hcolumn
  obtain ⟨a, ha, harray, hname⟩ := hmarks
  refine (h.collected column).2 ⟨h.grouped hlast column hcolumn, a, ha, harray, ?_⟩
  rw [hname]
  exact resolvedName_startsWith c column

theorem marked_of_collected (h : Flattening request base unnesting aggregating c)
    (hne : c.resolutionColumns ≠ []) (apart : NamedApart (projectedConfig request) c)
    (hcollected : ∀ column ∈ c.resolutionColumns,
      CollectsColumn aggregating (c.resolvedName column)) :
    MarksArray (projectedConfig request) c.safeName := by
  obtain ⟨column, hcolumn⟩ := List.exists_mem_of_ne_nil _ hne
  obtain ⟨-, a, ha, harray, hstarts⟩ := (h.collected column).1 (hcollected column hcolumn)
  by_cases hname : a.safeName = c.safeName
  · exact ⟨a, ha, harray, hname⟩
  · exact absurd hstarts (apart a ha harray hname column hcolumn)

/-- What is collected is marked, and what is unnested is marked and holds arrays. So the two calls
agree unless a column is marked that holds no arrays. -/
theorem agree_iff (h : Flattening request base unnesting aggregating c)
    (hlast : IsLastConfig (projectedConfig request) c) (hne : c.resolutionColumns ≠ [])
    (apart : NamedApart (projectedConfig request) c) :
    (UnnestsColumn base unnesting c.safeName ↔
        ∀ column ∈ c.resolutionColumns, CollectsColumn aggregating (c.resolvedName column)) ↔
      (MarksArray (projectedConfig request) c.safeName → HoldsArrays request c.safeName) := by
  have hmarked : (∀ column ∈ c.resolutionColumns,
      CollectsColumn aggregating (c.resolvedName column)) ↔
        MarksArray (projectedConfig request) c.safeName :=
    ⟨h.marked_of_collected hne apart, h.collected_of_marked hlast⟩
  rw [hmarked, h.unnested]
  constructor
  · intro hagree hmarks
    exact (hagree.2 hmarks).1
  · intro hholds
    exact ⟨And.right, fun hmarks => ⟨hholds hmarks, hmarks⟩⟩

end Flattening

section Runs

variable {σ : Type} {style compilerStyle : KeyStyle} {request : Request} {baseSql sql : String}

/-- The calls of a run of array resolution: the second and the fourth of a request are those that
unnest and collect. -/
theorem ArrayRun.log_eq {compiler : Compiler σ} {config : ResolutionConfig} {s : σ}
    {log : List Answered} {t : σ × List Answered}
    (run : ArrayRun compiler.recorded style request baseSql config (s, log) sql t) :
    ∃ rowId unnesting joining aggregating last,
      t.2 = last :: aggregating :: joining :: unnesting :: log ∧
      run.resolved.dimension? rowIdName = some rowId ∧
      unnesting.call = unnestCall run.base config.safeKeyed request.context ∧
      aggregating.call = aggregateCall config.safeKeyed run.resolved rowId request.context := by
  obtain ⟨unnesting, hunnest, hunnesting⟩ := log_unnest run.unnests
  obtain ⟨joining, hjoin⟩ := log_resolve run.resolves
  obtain ⟨aggregating, rowId, haggregate, hrow, haggregating⟩ := log_aggregate run.aggregates
  obtain ⟨last, hlast, -⟩ := log_restoreAliases run.restores
  rw [haggregate, hjoin, hunnest] at hlast
  exact ⟨rowId, unnesting, joining, aggregating, last, hlast, hrow, hunnesting, haggregating⟩

theorem ArrayRun.flattening {s t : σ × List Answered}
    (run : ArrayRun (Compiler.sql compilerStyle).recorded style request baseSql
      (projectedConfig request) s sql t) {rowId : Dimension}
    (hrow : run.resolved.dimension? rowIdName = some rowId) {c : ColumnConfig}
    (hc : c ∈ (projectedConfig request).columnConfigs) :
    Flattening request run.base
      (unnestCall run.base (projectedConfig request).safeKeyed request.context)
      (aggregateCall (projectedConfig request).safeKeyed run.resolved rowId request.context) c := by
  have hprojected := (mem_projectedConfig.1 hc).2
  constructor
  · obtain ⟨p, hp, hkey⟩ := hprojected
    obtain ⟨m, hm⟩ : ∃ m,
        request.projections.find? (fun p => Member.safeKey p = c.safeName) = some m := by
      rw [← Option.isSome_iff_exists, List.find?_isSome]
      exact ⟨p, hp, decide_eq_true hkey.symm⟩
    obtain ⟨field, d, hfield, hd, hmodifier, htype⟩ := dimension?_preparedBase run.prepares hm
    have hcolumn : columnType request c.safeName = some d.type := by
      rw [columnType, hm, Option.bind_some, hfield, Option.map_some, htype]
      rfl
    rw [unnestsColumn_iff hd hmodifier, marksArray_safeKeyed, HoldsArrays, hcolumn]
    simp
  · intro column
    rw [collectsColumn_iff, isResolvedArray_safeKeyed, isResolvedArray_iff]
  · intro hlast column hcolumn
    exact run.groupsColumn hrow hc hlast hprojected hcolumn

/-- The five calls of an accepted request with arrays, and the base schema that the second one
unnests. -/
theorem exists_flattening {s : σ} {t : σ × List Answered}
    (arrays : (projectedConfig request).hasArrayColumns = true)
    (accepted : (compile (Compiler.sql compilerStyle).recorded style request).run (s, []) =
      (.ok sql, t)) :
    ∃ first unnesting joining aggregating last baseSql base,
      calls (compile (Compiler.sql compilerStyle).recorded style request) s =
        [first, unnesting, joining, aggregating, last] ∧
      first.answer = .ok baseSql ∧
      preparedBase style baseSql request (projectedConfig request) request.projections =
        .ok base ∧
      ∀ c ∈ (projectedConfig request).columnConfigs,
        Flattening request base unnesting.call aggregating.call c := by
  have hcalls : calls (compile (Compiler.sql compilerStyle).recorded style request) s =
      t.2.reverse := by
    rw [calls, accepted]
  obtain ⟨a, ha, -⟩ := List.any_eq_true.1 arrays
  rw [compile_eq] at accepted
  obtain ⟨baseSql, _, hfirst, accepted⟩ := Calling.run_bind_ok.1 accepted
  obtain ⟨s₁, -, rfl⟩ := Compiler.run_recorded_ok hfirst
  rw [resolveProjected_arrays (List.ne_nil_of_mem ha) arrays] at accepted
  obtain ⟨run⟩ := resolveArrays_ok accepted
  obtain ⟨rowId, unnesting, joining, aggregating, last, hlog, hrow, hunnesting, haggregating⟩ :=
    run.log_eq
  refine ⟨⟨baseCall request, .ok baseSql⟩, unnesting, joining, aggregating, last, baseSql, run.base,
    ?_, rfl, run.prepares, ?_⟩
  · rw [hcalls, hlog]
    rfl
  · intro c hc
    rw [hunnesting, haggregating]
    exact run.flattening hrow hc

/-- An accepted request with arrays unnests a projected column in its second call exactly if the
column holds arrays and is marked as an array, and collects a resolved column in its fourth call
exactly if the name of this column starts like those of a marked one. So whatever is unnested is
collected. The converse holds for a column whose resolved names are not taken for those of another
one, unless it is marked and holds no arrays. -/
theorem unnested_iff_collected {s : σ} {t : σ × List Answered}
    (arrays : (projectedConfig request).hasArrayColumns = true)
    (accepted : (compile (Compiler.sql compilerStyle).recorded style request).run (s, []) =
      (.ok sql, t)) :
    ∃ first unnesting joining aggregating last baseSql base,
      calls (compile (Compiler.sql compilerStyle).recorded style request) s =
        [first, unnesting, joining, aggregating, last] ∧
      first.answer = .ok baseSql ∧
      preparedBase style baseSql request (projectedConfig request) request.projections =
        .ok base ∧
      ∀ c ∈ (projectedConfig request).columnConfigs,
        Flattening request base unnesting.call aggregating.call c ∧
        (IsLastConfig (projectedConfig request) c → c.resolutionColumns ≠ [] →
          (UnnestsColumn base unnesting.call c.safeName → ∀ column ∈ c.resolutionColumns,
            CollectsColumn aggregating.call (c.resolvedName column)) ∧
          (NamedApart (projectedConfig request) c →
            ((UnnestsColumn base unnesting.call c.safeName ↔ ∀ column ∈ c.resolutionColumns,
                CollectsColumn aggregating.call (c.resolvedName column)) ↔
              (MarksArray (projectedConfig request) c.safeName →
                HoldsArrays request c.safeName)))) := by
  obtain ⟨first, unnesting, joining, aggregating, last, baseSql, base, hcalls, hfirst, hbase,
    hflattening⟩ := exists_flattening arrays accepted
  refine ⟨first, unnesting, joining, aggregating, last, baseSql, base, hcalls, hfirst, hbase, ?_⟩
  intro c hc
  have h := hflattening c hc
  refine ⟨h, fun hlast hne => ⟨?_, h.agree_iff hlast hne⟩⟩
  intro hunnests
  exact h.collected_of_marked hlast (h.unnested.1 hunnests).2

end Runs

def ownerConfig : ColumnConfig :=
  .ofType "orders.owner" .stringArray "customers" "id" ["name", "email"]

/-- Orders with a column for their owners, which is marked as an array whatever its type is. -/
def markedRequest (owner : MemberType) : Request where
  query := { dimensions := ["orders.id", "orders.owner"] }
  tableSchemas :=
    [{ name := "orders"
       sql := "SELECT * FROM orders"
       dimensions :=
         [{ name := "id", sql := "orders.id", type := .number },
          { name := "owner", sql := "orders.owner", type := owner }] }]
  config :=
    { columnConfigs := [ownerConfig]
      tableSchemas :=
        [{ name := "customers"
           sql := "SELECT * FROM customers"
           dimensions :=
             [{ name := "name", sql := "customers.name", type := .string },
              { name := "email", sql := "customers.email", type := .string }] }] }

theorem ownerConfig_mem (owner : MemberType) :
    ownerConfig ∈ (projectedConfig (markedRequest owner)).columnConfigs := by
  cases owner <;> decide +kernel

theorem ownerConfig_isLast (owner : MemberType) :
    IsLastConfig (projectedConfig (markedRequest owner)) ownerConfig := by
  rw [IsLastConfig]
  cases owner <;> decide +kernel

theorem ownerConfig_marks (owner : MemberType) :
    MarksArray (projectedConfig (markedRequest owner)) ownerConfig.safeName :=
  ⟨ownerConfig, ownerConfig_mem owner, rfl, rfl⟩

/-- An array of owners is unnested, and what its elements were resolved to is collected again. -/
theorem owners_unnested_and_collected :
    ∃ sql t, (compile (Compiler.sql .dotted).recorded .dotted (markedRequest .stringArray)).run
        ((), []) = (.ok sql, t) ∧
      ∃ first unnesting joining aggregating last baseSql base,
        calls (compile (Compiler.sql .dotted).recorded .dotted (markedRequest .stringArray)) () =
          [first, unnesting, joining, aggregating, last] ∧
        first.answer = .ok baseSql ∧
        preparedBase .dotted baseSql (markedRequest .stringArray)
          (projectedConfig (markedRequest .stringArray))
          (markedRequest .stringArray).projections = .ok base ∧
        UnnestsColumn base unnesting.call ownerConfig.safeName ∧
        ∀ column ∈ ["name", "email"],
          CollectsColumn aggregating.call (ownerConfig.resolvedName column) := by
  obtain ⟨sql, t, accepted⟩ := Calling.exists_run_ok (show ((compile (Compiler.sql .dotted).recorded
    .dotted (markedRequest .stringArray)).run ((), [])).1.isOk = true by decide +kernel)
  obtain ⟨first, unnesting, joining, aggregating, last, baseSql, base, hcalls, hfirst, hbase, h⟩ :=
    unnested_iff_collected (by decide +kernel) accepted
  obtain ⟨hflattening, hagree⟩ := h ownerConfig (ownerConfig_mem .stringArray)
  have hunnests : UnnestsColumn base unnesting.call ownerConfig.safeName :=
    hflattening.unnested.2
      ⟨⟨.stringArray, by decide +kernel, rfl⟩, ownerConfig_marks .stringArray⟩
  exact ⟨sql, t, accepted, first, unnesting, joining, aggregating, last, baseSql, base, hcalls,
    hfirst, hbase, hunnests,
    (hagree (ownerConfig_isLast .stringArray) (by decide +kernel)).1 hunnests⟩

/-- A single owner is not unnested, and yet its name and its address are collected into arrays. -/
theorem marked_owner_only_collected :
    ∃ sql t, (compile (Compiler.sql .dotted).recorded .dotted (markedRequest .string)).run
        ((), []) = (.ok sql, t) ∧
      ∃ first unnesting joining aggregating last baseSql base,
        calls (compile (Compiler.sql .dotted).recorded .dotted (markedRequest .string)) () =
          [first, unnesting, joining, aggregating, last] ∧
        first.answer = .ok baseSql ∧
        preparedBase .dotted baseSql (markedRequest .string)
          (projectedConfig (markedRequest .string)) (markedRequest .string).projections =
            .ok base ∧
        ¬ UnnestsColumn base unnesting.call ownerConfig.safeName ∧
        ∀ column ∈ ["name", "email"],
          CollectsColumn aggregating.call (ownerConfig.resolvedName column) := by
  obtain ⟨sql, t, accepted⟩ := Calling.exists_run_ok (show ((compile (Compiler.sql .dotted).recorded
    .dotted (markedRequest .string)).run ((), [])).1.isOk = true by decide +kernel)
  obtain ⟨first, unnesting, joining, aggregating, last, baseSql, base, hcalls, hfirst, hbase, h⟩ :=
    exists_flattening (by decide +kernel) accepted
  have hflattening := h ownerConfig (ownerConfig_mem .string)
  have hscalar : ¬ HoldsArrays (markedRequest .string) ownerConfig.safeName := by
    rintro ⟨type, htype, harray⟩
    have hstring : columnType (markedRequest .string) ownerConfig.safeName = some .string := by
      decide +kernel
    cases hstring.symm.trans htype
    cases harray
  exact ⟨sql, t, accepted, first, unnesting, joining, aggregating, last, baseSql, base, hcalls,
    hfirst, hbase, fun hunnests => hscalar (hflattening.unnested.1 hunnests).1,
    hflattening.collected_of_marked (ownerConfig_isLast .string) (ownerConfig_marks .string)⟩

end Resolution
end SemanticLayer
