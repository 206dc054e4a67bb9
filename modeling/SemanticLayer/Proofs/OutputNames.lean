import SemanticLayer.Proofs.AliasMap

/-!
# SemanticLayer.Proofs.OutputNames

The names of the columns that resolution puts out.

`columnLabels` says what the columns of a projection are to be called. The two pipelines get there
in different ways: array resolution restores the aliases at the end, from the alias map alone
(`array_names`), scalar resolution takes them from the base query and gives the lookup tables
theirs (`scalar_names`). `compile_names` says that both put out the same columns in the same order.
-/

namespace SemanticLayer
namespace Resolution

open Compiler (Answered)

/-- What the columns are to be called that a projection ends up in. -/
def columnLabels (schemas : List TableSchema) (config : ResolutionConfig) (projection : String) :
    List (Option String) :=
  (outputColumns config projection).map
    (·.label config ((findField schemas projection).bind (·.alias)))

/-- Every projection is a dotted member, the members and the lookup columns have safe names of their
own, and none of these names or of the projections' aliases is that of the row id. -/
structure DistinctNames (schemas : List TableSchema) (config : ResolutionConfig)
    (projections : List String) : Prop where
  dotted : ∀ p ∈ projections, '.' ∈ p.toList
  found : ∀ p ∈ projections, (findField schemas p).isSome
  configs : (config.columnConfigs.map (·.safeName)).Nodup
  names : (safeNames schemas config).Nodup
  name_ne : rowIdName ∉ safeNames schemas config
  alias_ne : ∀ p ∈ projections, (findField schemas p).bind (·.alias) ≠ some rowIdName

/-- A compound alias has a blank, the name of the row id has none. -/
theorem compoundAlias_ne_rowIdName (base lookup : String) :
    base ++ " - " ++ lookup ≠ rowIdName := by
  intro h
  have hmem : ' ' ∈ (base ++ " - " ++ lookup).toList := by simp
  rw [h] at hmem
  exact absurd hmem (by decide)

namespace DistinctNames

variable {schemas : List TableSchema} {config : ResolutionConfig} {projections : List String}
  (distinct : DistinctNames schemas config projections)

include distinct

theorem safeKey_inj {p q : String} (hp : (findField schemas p).isSome)
    (hq : (findField schemas q).isSome) (h : Member.safeKey p = Member.safeKey q) : p = q := by
  obtain ⟨field, hp⟩ := Option.isSome_iff_exists.1 hp
  obtain ⟨field', hq⟩ := Option.isSome_iff_exists.1 hq
  have hsame := namedField_eq_of_safeKey distinct.names (mem_namedFields_of_findField hp)
    (mem_namedFields_of_findField hq) h
  exact congrArg NamedField.member hsame

theorem safeKey_ne {p : String} (hp : (findField schemas p).isSome) :
    Member.safeKey p ≠ rowIdName := by
  obtain ⟨field, hp⟩ := Option.isSome_iff_exists.1 hp
  intro he
  have hmem : Member.safeKey p ∈ safeNames schemas config :=
    safeKey_mem_safeNames (mem_namedFields_of_findField hp)
  rw [he] at hmem
  exact distinct.name_ne hmem

theorem lookupColumn_ne {x : OutputColumn} (hx : x ∈ lookupColumns config) :
    x.name ≠ rowIdName := by
  intro he
  exact distinct.name_ne (he ▸ name_mem_safeNames hx)

theorem outputColumn_ne {p : String} (hp : p ∈ projections) {x : OutputColumn}
    (hx : x ∈ outputColumns config p) : x.name ≠ rowIdName := by
  cases hc : config.columnConfig? p with
  | none =>
    rw [outputColumns_of_none hc, List.mem_singleton] at hx
    rw [hx]
    exact distinct.safeKey_ne (distinct.found p hp)
  | some c => exact distinct.lookupColumn_ne (mem_lookupColumns hc hx)

theorem outputColumn_inj {p q : String} (hp : p ∈ projections) (hq : q ∈ projections)
    {x y : OutputColumn} (hx : x ∈ outputColumns config p) (hy : y ∈ outputColumns config q)
    (h : x.name = y.name) : x = y := by
  obtain ⟨field, hfp⟩ := Option.isSome_iff_exists.1 (distinct.found p hp)
  obtain ⟨field', hfq⟩ := Option.isSome_iff_exists.1 (distinct.found q hq)
  have hsame := (namedField_eq_of_name distinct.names (mem_namedFields_of_findField hfp)
    (mem_namedFields_of_findField hfq) rfl rfl hx hy h).1
  have hpq : p = q := congrArg NamedField.member hsame
  rw [← hpq] at hy
  cases hc : config.columnConfig? p with
  | some c =>
    exact lookupColumn_eq_of_name distinct.names (mem_lookupColumns hc hx)
      (mem_lookupColumns hc hy) h
  | none =>
    rw [outputColumns_of_none hc, List.mem_singleton] at hx hy
    rw [hx, hy]

theorem namesApart : NamesApart schemas config projections where
  configs := distinct.configs
  keys := fun p hp q hq h => distinct.safeKey_inj (distinct.found p hp) (distinct.found q hq) h
  columns := by
    intro x hx y hy h
    obtain ⟨p, hp, hx⟩ := List.mem_flatMap.1 hx
    obtain ⟨q, hq, hy⟩ := List.mem_flatMap.1 hy
    exact distinct.outputColumn_inj hp hq hx hy h
  name_ne := by
    intro x hx
    obtain ⟨p, hp, hx⟩ := List.mem_flatMap.1 hx
    exact distinct.outputColumn_ne hp hx
  alias_ne := distinct.alias_ne

/-- No column is called like the row id. -/
theorem label_ne {p : String} (hp : p ∈ projections) :
    some rowIdName ∉ columnLabels schemas config p := by
  intro hmem
  obtain ⟨x, hx, hlabel⟩ := List.mem_map.1 hmem
  have hname := distinct.outputColumn_ne hp hx
  have halias := distinct.alias_ne p hp
  cases hgiven : (findField schemas p).bind (·.alias) with
  | none =>
    rw [hgiven, OutputColumn.label_none] at hlabel
    exact hname (Option.some.inj hlabel)
  | some a =>
    rw [hgiven] at halias hlabel
    cases x with
    | projected member => exact halias hlabel
    | lookedUp c column =>
      simp only [OutputColumn.label] at hlabel
      split at hlabel
      · exact hname (Option.some.inj hlabel)
      · rename_i given columns a' only hgiven' hcolumns
        cases hgiven'
        exact halias hlabel
      · obtain ⟨own, _, hcompound⟩ := Option.map_eq_some_iff.1 hlabel
        exact compoundAlias_ne_rowIdName _ _ hcompound

end DistinctNames

/-- Looked up in the alias map, the output columns of a projection have their labels. -/
theorem columnLabels_eq_get? {schemas : List TableSchema} {config : ResolutionConfig}
    {projections : List String} (distinct : DistinctNames schemas config projections)
    {aliases : Dictionary} (ha : aliasMap schemas config = .ok aliases) {p : String}
    (hp : p ∈ projections) :
    (outputColumns config p).map (fun x => some ((aliases.get? x.name).getD x.name)) =
      columnLabels schemas config p := by
  obtain ⟨field, hf⟩ := Option.isSome_iff_exists.1 (distinct.found p hp)
  apply List.map_congr_left
  intro x hx
  rw [label_eq_get?_aliasMap distinct.names (distinct.dotted p hp) hf ha hx, hf]
  rfl

/-! ## Array resolution -/

theorem aliasEntries_safeKeyed (config : ResolutionConfig) (column a : String) :
    aliasEntries config.safeKeyed column a = aliasEntries config column a := by
  rw [aliasEntries, aliasEntries, config.columnConfig?_safeKeyed]
  cases config.columnConfig? column with
  | none => rfl
  | some c =>
    have hlookup : ∀ source, lookupAlias source c.keyed a = lookupAlias source c a := by
      intro source
      funext column
      rw [lookupAlias, lookupAlias, c.resolvedName_keyed]
    simp only [Option.map_some, ColumnConfig.resolvedName_keyed, hlookup]
    rfl

theorem aliasMap_safeKeyed (schemas : List TableSchema) (config : ResolutionConfig) :
    aliasMap schemas config.safeKeyed = aliasMap schemas config := by
  simp only [aliasMap, aliasEntries_safeKeyed]

/-- The last statement puts each column out under its alias, or else under its own name. -/
theorem restoreAliases_columns {σ : Type} {style : KeyStyle} {aggregated : TableSchema}
    {schemas : List TableSchema} {config : ResolutionConfig} {context : Option ContextParams}
    {s t : σ × List Answered} {sql : String} (hname : aggregated.name = baseName)
    (hmeasures : aggregated.measures = [])
    (h : (restoreAliases (Compiler.sql style).recorded aggregated schemas config context).run s =
      (.ok sql, t)) :
    ∃ aliases last earlier, aliasMap schemas config = .ok aliases ∧ t.2 = last :: earlier ∧
      last.Selects sql ((last.columns style).map quoteIdentifier) ∧
      last.columns style =
        aggregated.headings.map fun x => (aliases.get? x.name).getD x.name := by
  obtain ⟨aliases, ha, hcall⟩ := restoreAliases_ok h
  obtain ⟨last, ht, hselects, hcolumns⟩ := columns_allDimensions
    (show '.' ∉ (applyAliases aliases aggregated).name.toList from hname ▸ dot_not_mem_baseName)
    hmeasures (consistent_applyAliases aliases aggregated) (aliased_applyAliases aliases aggregated)
    hcall
  refine ⟨aliases, last, _, ha, congrArg Prod.snd ht, hselects, ?_⟩
  rw [hcolumns, headings_applyAliases, List.map_map]
  rfl

theorem array_names {σ : Type} {style compilerStyle : KeyStyle} {request : Request}
    {baseSql sql : String} {config : ResolutionConfig} {s t : σ × List Answered}
    (distinct : DistinctNames request.tableSchemas config request.projections)
    (accepted : (resolveArrays (Compiler.sql compilerStyle).recorded style request baseSql
      config).run s = (.ok sql, t)) :
    ∃ last earlier, t.2 = last :: earlier ∧
      last.Selects sql ((last.columns compilerStyle).map quoteIdentifier) ∧
      (last.columns compilerStyle).map some =
        request.projections.flatMap (columnLabels request.tableSchemas config) := by
  obtain ⟨run⟩ := resolveArrays_ok accepted
  have apart := distinct.namesApart
  have hname : run.aggregated.name = baseName := by
    rw [(headings_aggregate run.aggregates).1]
    exact (run.readsHeadings_resolved apart).1
  obtain ⟨aliases, last, earlier, ha, ht, hselects, hcolumns⟩ :=
    restoreAliases_columns hname run.measures_aggregated run.restores
  rw [aliasMap_safeKeyed] at ha
  refine ⟨last, earlier, ht, hselects, ?_⟩
  rw [hcolumns, run.headings_aggregated apart]
  simp only [List.map_map, List.map_flatMap]
  apply List.flatMap_congr
  intro p hp
  rw [← columnLabels_eq_get? distinct ha hp]
  apply List.map_congr_left
  intro x _
  simp only [Function.comp_apply, OutputColumn.name_heading]

/-! ## Scalar resolution -/

theorem selectedName_base {base : TableSchema} {lookups : List TableSchema}
    (hdot : '.' ∉ base.name.toList) (hmeasures : base.measures = [])
    (hne : ∀ lookup ∈ lookups, lookup.name ≠ base.name) (name : String) (style : KeyStyle) :
    selectedName style (base :: lookups) (Member.qualify base.name name) =
      (base.headings.find? (·.name = name)).map fun h =>
        style.columnName (Member.qualify base.name name) h.alias := by
  have hfilter : (base :: lookups).filter (·.name = base.name) = [base] := by
    rw [List.filter_cons_of_pos (by simp), List.filter_eq_nil_iff.2]
    simpa using hne
  rw [selectedName, findField_qualify hdot, hfilter, TableSchema.find?_headings]
  have hmeasure : base.measure? name = none := by simp [TableSchema.measure?, hmeasures]
  cases hd : base.dimension? name with
  | none => simp [TableSchema.field?, hd, hmeasure]
  | some d => simp [TableSchema.field?, hd, Field.alias, Dimension.heading]

/-- A projection that is not resolved is selected under its label, if it is selected at all. -/
theorem selectedName_projected {baseSql : String} {schemas : List TableSchema}
    {config : ResolutionConfig} {projections members : List String} {base : TableSchema}
    {lookups : List TableSchema} (distinct : DistinctNames schemas config projections)
    (isBase : IsBase .underscore baseSql schemas config.columnConfigs members base)
    (hne : ∀ lookup ∈ lookups, lookup.name ≠ base.name) {p : String} (hp : p ∈ projections)
    (hc : config.columnConfig? p = none)
    (hselected : (selectedName .underscore (base :: lookups)
      (Member.qualify base.name (Member.safeKey p))).isSome) :
    (expandMember base.name config p).map (selectedName .underscore (base :: lookups)) =
      columnLabels schemas config p := by
  have hdot : '.' ∉ base.name.toList := isBase.name ▸ dot_not_mem_baseName
  have hbase := selectedName_base hdot isBase.measures hne (Member.safeKey p) .underscore
  rw [hbase, Option.isSome_map] at hselected
  obtain ⟨x, hx⟩ := Option.isSome_iff_exists.1 hselected
  have hname : x.name = Member.safeKey p := by simpa using List.find?_some hx
  have hmem := List.mem_of_find?_eq_some hx
  rw [isBase.headings] at hmem
  rcases List.mem_append.1 hmem with hmem | hmem
  · obtain ⟨m, hm, rfl⟩ := List.mem_map.1 hmem
    have hmp : m = p := distinct.safeKey_inj (isBase.found m hm) (distinct.found p hp) hname
    rw [expandMember, hc, columnLabels, outputColumns_of_none hc, List.map_singleton,
      List.map_singleton, hbase, hx, hmp]
    rfl
  · rw [List.mem_singleton.1 hmem] at hname
    exact absurd hname.symm (distinct.safeKey_ne (distinct.found p hp))

theorem selectedName_resolved {schemas : List TableSchema} {config : ResolutionConfig}
    {projections : List String} {base : TableSchema} {lookups : List TableSchema}
    {aliases : Dictionary} (distinct : DistinctNames schemas config projections)
    (ha : aliasMap schemas config = .ok aliases)
    (hlookups : LabelledLookups (fun name => (aliases.get? name).getD name) config lookups)
    {p : String} (hp : p ∈ projections) {c : ColumnConfig} (hc : config.columnConfig? p = some c)
    (hne : base.name ≠ c.safeName) (style : KeyStyle) :
    (expandMember base.name config p).map (selectedName style (base :: lookups)) =
      columnLabels schemas config p := by
  obtain ⟨hmem, _⟩ := ResolutionConfig.columnConfig?_eq_some hc
  rw [← columnLabels_eq_get? distinct ha hp, outputColumns_of_some hc, expandMember, hc]
  simp only [List.map_map]
  apply List.map_congr_left
  intro column hcolumn
  rw [Function.comp_apply, Function.comp_apply,
    selectedName_lookup hlookups hmem hne hcolumn style]
  rfl

theorem selectedName_expandMembers {baseSql : String} {schemas : List TableSchema}
    {config : ResolutionConfig} {projections members : List String} {base : TableSchema}
    {lookups : List TableSchema} {aliases : Dictionary}
    (distinct : DistinctNames schemas config projections)
    (isBase : IsBase .underscore baseSql schemas config.columnConfigs members base)
    (ha : aliasMap schemas config = .ok aliases)
    (hlookups : LabelledLookups (fun name => (aliases.get? name).getD name) config lookups)
    (hconfigs : ∀ c ∈ config.columnConfigs, c.safeName ≠ base.name)
    (hne : ∀ lookup ∈ lookups, lookup.name ≠ base.name)
    (hselected : ∀ m ∈ expandMembers base.name config projections,
      ∃ name, selectedName .underscore (base :: lookups) m = some name) :
    (expandMembers base.name config projections).map (selectedName .underscore (base :: lookups)) =
      projections.flatMap (columnLabels schemas config) := by
  rw [expandMembers, List.map_flatMap]
  apply List.flatMap_congr
  intro p hp
  cases hc : config.columnConfig? p with
  | some c =>
    have hmem := (ResolutionConfig.columnConfig?_eq_some hc).1
    exact selectedName_resolved distinct ha hlookups hp hc (Ne.symm (hconfigs c hmem)) .underscore
  | none =>
    apply selectedName_projected distinct isBase hne hp hc
    apply Option.isSome_iff_exists.2
    apply hselected
    refine List.mem_flatMap.2 ⟨p, hp, ?_⟩
    rw [expandMember, hc]
    exact List.mem_singleton_self _

theorem selectedName_rowId {baseSql : String} {schemas : List TableSchema}
    {config : ResolutionConfig} {projections members : List String} {base : TableSchema}
    {lookups : List TableSchema} (distinct : DistinctNames schemas config projections)
    (isBase : IsBase .underscore baseSql schemas config.columnConfigs members base) :
    selectedName .underscore (base :: lookups) (Member.qualify base.name rowIdName) =
      some rowIdName := by
  have hconsistent := isBase.consistent
    (fun p hp q hq => distinct.safeKey_inj (isBase.found p hp) (isBase.found q hq))
    (fun p hp => distinct.safeKey_ne (isBase.found p hp))
  have hmem : Heading.plain rowIdName ∈ base.headings := by simp [isBase.headings]
  exact selectedName_of_heading (isBase.name ▸ dot_not_mem_baseName) (hconsistent.find? hmem) rfl
    .underscore _

/-- A lookup table under the name of the base table would not have compiled. -/
theorem safeName_ne_of_sourceOf {style : KeyStyle} {baseSql : String} {schemas : List TableSchema}
    {config : ResolutionConfig} {members : List String} {base : TableSchema}
    {lookups : List TableSchema} {aliases : Dictionary} {q : Query} {source : JoinChain}
    (isBase : IsBase style baseSql schemas config.columnConfigs members base)
    (hl : lookupSchemas config = .ok lookups)
    (hsource : Select.sourceOf q (base :: lookups.map (applyAliases aliases)) = .ok source) :
    ∀ c ∈ config.columnConfigs, c.safeName ≠ base.name := by
  intro c hc
  obtain ⟨lookup, hlookup, _⟩ := exists_of_mapM_ok hl hc
  have hjoin : baseJoin style schemas c ∈ base.joins := by
    rw [isBase.joins]
    exact List.mem_map_of_mem hc
  rw [isBase.name]
  exact safeName_ne_baseName isBase.name hjoin
    (List.ne_nil_of_mem (List.mem_map_of_mem hlookup)) hsource

theorem lookup_ne_of_sourceOf {style : KeyStyle} {baseSql : String} {schemas : List TableSchema}
    {config : ResolutionConfig} {members : List String} {base : TableSchema}
    {lookups : List TableSchema} {aliases : Dictionary} {q : Query} {source : JoinChain}
    (isBase : IsBase style baseSql schemas config.columnConfigs members base)
    (hl : lookupSchemas config = .ok lookups)
    (hsource : Select.sourceOf q (base :: lookups.map (applyAliases aliases)) = .ok source) :
    ∀ lookup ∈ lookups.map (applyAliases aliases), lookup.name ≠ base.name := by
  intro lookup hlookup
  obtain ⟨plain, hplain, rfl⟩ := List.mem_map.1 hlookup
  have hmem : plain.name ∈ config.columnConfigs.map (·.safeName) :=
    names_of_lookupSchemas hl ▸ List.mem_map_of_mem hplain
  obtain ⟨c, hc, hname⟩ := List.mem_map.1 hmem
  exact fun he => safeName_ne_of_sourceOf isBase hl hsource c hc (hname.trans he)

theorem fullyAliased_scalarCall {style : KeyStyle} {baseSql : String} {schemas : List TableSchema}
    {config : ResolutionConfig} {members : List String} {base : TableSchema}
    {lookups : List TableSchema} {aliases : Dictionary}
    (isBase : IsBase style baseSql schemas config.columnConfigs members base)
    (hl : lookupSchemas config = .ok lookups) :
    ∀ s ∈ base :: lookups.map (applyAliases aliases), s.FullyAliased := by
  refine List.forall_mem_cons.2 ⟨isBase.fullyAliased, fun lookup hlookup => ?_⟩
  obtain ⟨plain, hplain, rfl⟩ := List.mem_map.1 hlookup
  exact fullyAliased_applyAliases (measures_of_lookupSchemas hl plain hplain) aliases

theorem scalar_names {σ : Type} {request : Request} {baseSql sql : String}
    {config : ResolutionConfig} {s t : σ × List Answered}
    (distinct : DistinctNames request.tableSchemas config request.projections)
    (accepted : (resolveScalars (Compiler.sql .underscore).recorded .underscore request baseSql
      config).run s = (.ok sql, t)) :
    ∃ last earlier inner columns, t.2 = last :: earlier ∧
      sql = "SELECT * EXCLUDE (\"__row_id\") FROM (" ++ inner
        ++ ") AS __row_id_ordered ORDER BY \"__row_id\"" ∧
      last.Selects inner ((columns ++ [rowIdName]).map quoteIdentifier) ∧
      columns.map some =
        request.projections.flatMap (columnLabels request.tableSchemas config) := by
  obtain ⟨base, aliases, lookups, inner, hbase, ha, hl, hcall, hsql⟩ := resolveScalars_ok accepted
  have isBase := preparedBase_ok hbase
  obtain ⟨last, ht, ⟨source, hsource⟩, hnames, hselects⟩ := Compiler.recorded_columns hcall
  have hselects := hselects (fullyAliased_scalarCall isBase hl)
  rw [Select.schemasFor_of_no_filters rfl] at hsource hnames
  simp only [scalarCall, List.append_nil] at hsource hnames
  have hlabelled := (labelledLookups_id hl distinct.configs).applyAliases aliases
  have hne := safeName_ne_of_sourceOf isBase hl hsource
  have hlookupne := lookup_ne_of_sourceOf isBase hl hsource
  have hprojected := selectedName_expandMembers distinct isBase ha hlabelled hne hlookupne
    fun m hm => exists_of_map_eq hnames (List.mem_append_left _ hm)
  rw [List.map_append, List.map_singleton, selectedName_rowId distinct isBase, hprojected] at hnames
  obtain ⟨columns, row, hcolumns, hlabels, hrowLabel⟩ := List.map_eq_append_iff.1 hnames.symm
  have hrowColumns : row = [rowIdName] := eq_of_map_some_eq hrowLabel
  rw [hcolumns, hrowColumns] at hselects
  exact ⟨last, _, inner, columns, congrArg Prod.snd ht, hsql, hselects, hlabels⟩

/-! ## Both pipelines -/

/-- Whichever pipeline runs, the last select list puts out the columns of the projections, in their
order and under their labels. In scalar resolution the row id comes after them, and the result
leaves it out again. -/
theorem compile_names {σ : Type} {request : Request} {sql : String} {s t : σ × List Answered}
    (projected : (projectedConfig request).columnConfigs ≠ [])
    (distinct : DistinctNames request.tableSchemas (projectedConfig request) request.projections)
    (accepted : (compile (Compiler.sql .underscore).recorded .underscore request).run s =
      (.ok sql, t)) :
    ∃ last earlier inner columns, t.2 = last :: earlier ∧
      columns.map some =
        request.projections.flatMap
          (columnLabels request.tableSchemas (projectedConfig request)) ∧
      rowIdName ∉ columns ∧
      if (projectedConfig request).hasArrayColumns then
        sql = inner ∧ last.Selects inner (columns.map quoteIdentifier)
      else
        sql = "SELECT * EXCLUDE (\"__row_id\") FROM (" ++ inner
          ++ ") AS __row_id_ordered ORDER BY \"__row_id\"" ∧
          last.Selects inner ((columns ++ [rowIdName]).map quoteIdentifier) := by
  have hrow : ∀ columns : List String, columns.map some = request.projections.flatMap
      (columnLabels request.tableSchemas (projectedConfig request)) → rowIdName ∉ columns := by
    intro columns hcolumns hmem
    have hlabel : some rowIdName ∈ columns.map some := List.mem_map_of_mem hmem
    rw [hcolumns] at hlabel
    obtain ⟨p, hp, hlabel⟩ := List.mem_flatMap.1 hlabel
    exact distinct.label_ne hp hlabel
  rw [compile_eq] at accepted
  obtain ⟨baseSql, s₁, -, accepted⟩ := Calling.run_bind_ok.1 accepted
  by_cases harray : (projectedConfig request).hasArrayColumns = true
  · rw [resolveProjected_arrays projected harray] at accepted
    obtain ⟨last, earlier, ht, hselects, hlabels⟩ := array_names distinct accepted
    refine ⟨last, earlier, sql, _, ht, hlabels, hrow _ hlabels, ?_⟩
    rw [if_pos harray]
    exact ⟨rfl, hselects⟩
  · rw [resolveProjected_scalars projected harray] at accepted
    obtain ⟨last, earlier, inner, columns, ht, hsql, hselects, hlabels⟩ :=
      scalar_names distinct accepted
    refine ⟨last, earlier, inner, columns, ht, hlabels, hrow _ hlabels, ?_⟩
    rw [if_neg harray]
    exact ⟨hsql, hselects⟩

/-- Of the orders, only the tag and the number are put out. No array is resolved. -/
def tagsRequest : Request :=
  { ordersRequest with columnProjections := some ["orders.tag_id", "orders.id"] }

theorem distinctNames_tagsRequest :
    DistinctNames tagsRequest.tableSchemas (projectedConfig tagsRequest)
      tagsRequest.projections := by
  constructor <;> decide +kernel

theorem tags_compile_names :
    ∃ sql t, (compile (Compiler.sql .underscore).recorded .underscore tagsRequest).run ((), []) =
        (.ok sql, t) ∧
      ∃ last earlier inner, t.2 = last :: earlier ∧
        sql = "SELECT * EXCLUDE (\"__row_id\") FROM (" ++ inner
          ++ ") AS __row_id_ordered ORDER BY \"__row_id\"" ∧
        last.Selects inner
          ["\"orders__tag_id__label\"", "\"Order \"\"ID\"\"\"", "\"__row_id\""] := by
  obtain ⟨sql, t, accepted⟩ := Calling.exists_run_ok (show ((compile
    (Compiler.sql .underscore).recorded .underscore tagsRequest).run ((), [])).1.isOk = true by
      decide +kernel)
  obtain ⟨last, earlier, inner, columns, ht, hlabels, -, hselects⟩ :=
    compile_names (by decide +kernel) distinctNames_tagsRequest accepted
  have hscalar : ¬ (projectedConfig tagsRequest).hasArrayColumns = true := by decide +kernel
  rw [if_neg hscalar] at hselects
  have hcolumns : columns = ["orders__tag_id__label", "Order \"ID\""] := by
    apply eq_of_map_some_eq
    rw [hlabels]
    decide +kernel
  subst hcolumns
  exact ⟨sql, t, accepted, last, earlier, inner, ht, hselects⟩

example : ordersRequest.projections.flatMap
    (columnLabels ordersRequest.tableSchemas (projectedConfig ordersRequest)) =
      [some "Order \"ID\"", some "Owners - Name", some "Owners - E-mail",
        some "orders__tag_id__label"] := by
  decide +kernel

end Resolution
end SemanticLayer
