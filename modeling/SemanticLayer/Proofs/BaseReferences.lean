import SemanticLayer.Proofs.JoinCall
import SemanticLayer.Proofs.PhaseColumns
import SemanticLayer.Proofs.References

/-!
# SemanticLayer.Proofs.BaseReferences

The columns of the base query that the next call refers to.

The base query puts out the columns of its own members. The schema that is laid over it lists the
members of `baseMembers`, which are the projections when arrays are resolved, and a row id that is
ordered by the members of `query.order`. These are three lists of the caller.
`base_references_selected_iff` says when every column that the schema refers to is there:
the listed members have to be selected, and an ordered member has to be listed, or else its safe key
has to be a selected column by chance. `unlisted_order_key_dangles` is a request where it is not.
-/

namespace SemanticLayer

open Calling (calls)
open Compiler (Answered)

/-! ## The columns of the base query -/

namespace Resolution

/-- The columns that the base query puts out. -/
def baseColumns (style : KeyStyle) (request : Request) : List String :=
  request.query.members.map (baseColumn style request.tableSchemas)

theorem selectedName_schemasFor {style : KeyStyle} {q : Query} {schemas : List TableSchema}
    {member name : String} (hm : member ∈ q.members)
    (h : selectedName style (Select.schemasFor q schemas) member = some name) :
    name = baseColumn style schemas member := by
  rw [selectedName, findField_schemasFor (table_mem_of_selected hm)] at h
  obtain ⟨field, hfield, rfl⟩ := Option.map_eq_some_iff.1 h
  simp [baseColumn, hfield]

/-- A statement puts its members out under the columns that a base schema reads. -/
theorem names_eq_baseColumns {style : KeyStyle} {q : Query} {schemas : List TableSchema}
    {statement : Select} (h : Select.ofQuery style q schemas = .ok statement) :
    statement.names = (q.dimensions ++ q.measures).map (baseColumn style schemas) := by
  have hnames := (Select.ofQuery_ok h).2
  apply eq_of_map_some_eq
  rw [← hnames, List.map_map]
  apply List.map_congr_left
  intro m hm
  obtain ⟨name, hname⟩ := exists_of_map_eq hnames hm
  rw [hname, selectedName_schemasFor (Query.mem_members.2 hm) hname]
  rfl

/-- How the select list of the base query writes the column of a member: in quotes if the member has
an alias or the keys are dotted. -/
def writtenColumn (style : KeyStyle) (schemas : List TableSchema) (member : String) : String :=
  if ((findField schemas member).bind (·.alias)).isSome ∨ style = .dotted then
    quoteIdentifier (baseColumn style schemas member)
  else baseColumn style schemas member

theorem labels_eq_writtenColumns {style : KeyStyle} {q : Query} {schemas : List TableSchema}
    {statement : Select} (h : Select.ofQuery style q schemas = .ok statement) :
    statement.labels = (q.dimensions ++ q.measures).map (writtenColumn style schemas) := by
  obtain ⟨parts⟩ := Select.ofQuery_parts h
  have hlabels := Select.labels_eq parts
  apply eq_of_map_some_eq
  rw [← hlabels, List.map_map]
  apply List.map_congr_left
  intro m hm
  obtain ⟨label, hlabel⟩ := exists_of_map_eq hlabels hm
  obtain ⟨field, hf, -⟩ := Option.map_eq_some_iff.1 hlabel
  rw [hf]
  rw [findField_schemasFor (table_mem_of_selected (Query.mem_members.2 hm))] at hf
  simp [writtenColumn, writtenName, baseColumn, hf]

theorem selects_baseCall {style : KeyStyle} {request : Request} {sql : String}
    (h : compileQuery style request.query request.tableSchemas = .ok sql) :
    Answered.Selects ⟨baseCall request, .ok sql⟩ sql
      ((request.query.dimensions ++ request.query.measures).map
        (writtenColumn style request.tableSchemas)) := by
  obtain ⟨statement, hs, rfl⟩ := compileQuery_eq_ok.1 h
  rw [← labels_eq_writtenColumns hs]
  exact Answered.selects_labels hs

theorem mem_columns_baseCall {style : KeyStyle} {request : Request} {sql : String}
    (h : compileQuery style request.query request.tableSchemas = .ok sql) (column : String) :
    column ∈ Answered.columns style ⟨baseCall request, .ok sql⟩ ↔
      column ∈ baseColumns style request := by
  obtain ⟨statement, hs, -⟩ := compileQuery_eq_ok.1 h
  have hcolumns : Answered.columns style ⟨baseCall request, .ok sql⟩ = statement.names :=
    Answered.columns_of_ok hs
  rw [hcolumns, names_eq_baseColumns hs, baseColumns, Query.members]
  simp [or_comm]

/-! ## What a base schema refers to -/

/-- The columns of the base query that the dimensions of a schema refer to. -/
def baseReferences (s : TableSchema) : List String :=
  s.dimensions.flatMap fun d => references baseName d.sql

theorem quote_not_mem_baseName : '"' ∉ baseName.toList := by decide

theorem mem_references_flatten {d : Dimension}
    (h : d.type.isArray = true → ∃ column, d.sql = columnOf baseName column) (c : String) :
    c ∈ references baseName (flatten d).sql ↔ c ∈ references baseName d.sql := by
  rw [flatten]
  split
  · rename_i hflatten
    rw [Dimension.shouldFlattenArray, Bool.and_eq_true] at hflatten
    obtain ⟨column, hcolumn⟩ := h hflatten.1
    rw [hcolumn, references_flattenSql quote_not_mem_baseName,
      references_columnOf quote_not_mem_baseName]
    simp
  · rfl

theorem mem_baseReferences_flattened {base : TableSchema}
    (h : ∀ d ∈ base.dimensions, d.type.isArray = true → ∃ column, d.sql = columnOf baseName column)
    (config : ResolutionConfig) (c : String) :
    c ∈ baseReferences (flattened config base) ↔ c ∈ baseReferences base := by
  simp only [baseReferences, flattened, flagArrays, List.map_map, List.flatMap_map,
    List.mem_flatMap, Function.comp_apply]
  refine exists_congr fun d => and_congr_right fun hd => ?_
  split
  · exact mem_references_flatten
      (d := { d with modifier := some { d.modifier.getD {} with flattenArray := true } })
      (h d hd) c
  · exact mem_references_flatten (h d hd) c

theorem dimensions_preparedBase {style : KeyStyle} {baseSql : String} {request : Request}
    {config : ResolutionConfig} {members : List String} {base : TableSchema}
    (plain : config.overrides = [])
    (h : preparedBase style baseSql request config members = .ok base) :
    ∃ dimensions, members.mapM (baseDimension style request.tableSchemas) = .ok dimensions ∧
      ∃ rowId, rowId.type = .number ∧
        rowId.sql = rowNumberSql request.query.order dimensions baseName ∧
        base.dimensions = dimensions ++ [rowId] := by
  rw [preparedBase, plain] at h
  obtain ⟨_, hplain, h⟩ := bind_eq_ok.1 h
  obtain ⟨_, hover, h⟩ := bind_eq_ok.1 h
  cases h
  cases hover
  rw [baseSchema] at hplain
  obtain ⟨dimensions, hdims, hplain⟩ := bind_eq_ok.1 hplain
  cases hplain
  exact ⟨dimensions, hdims, _, rfl, rfl, rfl⟩

/-- An ordered member is found among the members, or its safe key stands for it. -/
theorem orderColumn_baseDimensions {style : KeyStyle} {schemas : List TableSchema}
    {members : List String} {dimensions : List Dimension}
    (h : members.mapM (baseDimension style schemas) = .ok dimensions) (member : String) :
    (∃ m ∈ members, orderColumn dimensions member = baseColumn style schemas m ∧
      (Member.safeKey m = Member.safeKey member ∨
        baseColumn style schemas m = Member.safeKey member)) ∨
    (orderColumn dimensions member = Member.safeKey member ∧
      ∀ m ∈ members, Member.safeKey m ≠ Member.safeKey member) := by
  rw [orderColumn_eq_find? h]
  cases hfind : members.find? fun m => Member.safeKey m = Member.safeKey member ∨
      baseColumn style schemas m = Member.safeKey member with
  | some m =>
    exact .inl ⟨m, List.mem_of_find?_eq_some hfind, rfl, by simpa using List.find?_some hfind⟩
  | none =>
    refine .inr ⟨rfl, fun m hm hkey => ?_⟩
    exact List.find?_eq_none.1 hfind m hm (decide_eq_true (.inl hkey))

theorem mem_baseReferences {style : KeyStyle} {baseSql : String} {request : Request}
    {config : ResolutionConfig} {members : List String} {base : TableSchema}
    (plain : config.overrides = [])
    (h : preparedBase style baseSql request config members = .ok base) :
    ∃ dimensions, members.mapM (baseDimension style request.tableSchemas) = .ok dimensions ∧
      ∀ c, c ∈ baseReferences base ↔
        (∃ m ∈ members, baseColumn style request.tableSchemas m = c) ∨
          ∃ e ∈ request.query.order, orderColumn dimensions e.member = c := by
  obtain ⟨dimensions, hdims, rowId, -, hrow, hbase⟩ := dimensions_preparedBase plain h
  refine ⟨dimensions, hdims, fun c => ?_⟩
  have hmembers : (dimensions.flatMap fun d => references baseName d.sql) =
      members.map (baseColumn style request.tableSchemas) := by
    have hsql : (dimensions.map fun d => references baseName d.sql) =
        members.map fun m => [baseColumn style request.tableSchemas m] := by
      apply map_of_mapM_ok hdims
      intro m _ d hd
      obtain ⟨_, _, rfl⟩ := baseDimension_ok hd
      exact references_columnOf quote_not_mem_baseName _
    rw [List.flatMap_def, hsql, ← List.flatMap_def, List.map_eq_flatMap]
  rw [baseReferences, hbase, List.flatMap_append, List.mem_append, hmembers,
    List.flatMap_singleton, hrow, references_rowNumberSql quote_not_mem_baseName, List.mem_map,
    List.mem_map]

/-- Every reference of a base schema meets a condition exactly if the columns of its members do, and
the safe keys of the ordered members that are not among them. -/
theorem forall_baseReferences {style : KeyStyle} {baseSql : String} {request : Request}
    {config : ResolutionConfig} {members : List String} {base : TableSchema}
    (plain : config.overrides = [])
    (h : preparedBase style baseSql request config members = .ok base) (P : String → Prop) :
    (∀ c ∈ baseReferences base, P c) ↔
      (∀ m ∈ members, P (baseColumn style request.tableSchemas m)) ∧
        ∀ e ∈ request.query.order,
          (∃ m ∈ members, Member.safeKey m = Member.safeKey e.member) ∨
            P (Member.safeKey e.member) := by
  obtain ⟨dimensions, hdims, hmem⟩ := mem_baseReferences plain h
  constructor
  · intro hall
    have hmembers : ∀ m ∈ members, P (baseColumn style request.tableSchemas m) :=
      fun m hm => hall _ ((hmem _).2 (.inl ⟨m, hm, rfl⟩))
    refine ⟨hmembers, fun e he => ?_⟩
    rcases orderColumn_baseDimensions hdims e.member with ⟨m, hm, -, hkey | hkey⟩ | ⟨hkey, -⟩
    · exact .inl ⟨m, hm, hkey⟩
    · -- Found by its alias, which is then both the column of `m` and the safe key.
      exact .inr (hkey ▸ hmembers m hm)
    · exact .inr (hkey ▸ hall _ ((hmem _).2 (.inr ⟨e, he, rfl⟩)))
  · rintro ⟨hmembers, horder⟩ c hc
    rcases (hmem c).1 hc with ⟨m, hm, rfl⟩ | ⟨e, he, rfl⟩
    · exact hmembers m hm
    · rcases orderColumn_baseDimensions hdims e.member with ⟨m, hm, hcolumn, -⟩ | ⟨hkey, hnone⟩
      · exact hcolumn ▸ hmembers m hm
      · rcases horder e he with ⟨m, hm, hsafe⟩ | hsafe
        · exact absurd hsafe (hnone m hm)
        · exact hkey ▸ hsafe

/-! ## The call after the base query -/

theorem sql_of_isArray {style : KeyStyle} {baseSql : String} {request : Request}
    {config : ResolutionConfig} {members : List String} {base : TableSchema}
    (plain : config.overrides = [])
    (h : preparedBase style baseSql request config members = .ok base) :
    ∀ d ∈ base.dimensions, d.type.isArray = true → ∃ column, d.sql = columnOf baseName column := by
  obtain ⟨dimensions, hdims, rowId, htype, -, hbase⟩ := dimensions_preparedBase plain h
  intro d hd harray
  rw [hbase] at hd
  rcases List.mem_append.1 hd with hd | hd
  · obtain ⟨m, _, hm⟩ := exists_of_mem_mapM_ok hdims hd
    obtain ⟨_, _, rfl⟩ := baseDimension_ok hm
    exact ⟨_, rfl⟩
  · -- The row id is a number.
    rw [List.mem_singleton.1 hd, htype] at harray
    cases harray

/-- An accepted request makes a second call, over the base schema or over the base schema with its
arrays unnested. -/
theorem second_call {σ : Type} {compiler : Compiler σ} {style : KeyStyle} {request : Request}
    {s : σ} {sql : String} {t : σ × List Answered}
    (projected : (projectedConfig request).columnConfigs ≠ [])
    (accepted : (compile compiler.recorded style request).run (s, []) = (.ok sql, t)) :
    ∃ first second later baseSql s₁ prepared base others,
      calls (compile compiler.recorded style request) s = first :: second :: later ∧
      first = ⟨baseCall request, .ok baseSql⟩ ∧
      (compiler (baseCall request)).run s = (.ok baseSql, s₁) ∧
      preparedBase style baseSql request (projectedConfig request) (baseMembers request) =
        .ok prepared ∧
      second.call.schemas = base :: others ∧
      (base = prepared ∨ base = flattened (projectedConfig request).safeKeyed prepared) := by
  have hcalls : calls (compile compiler.recorded style request) s = t.2.reverse := by
    rw [calls, accepted]
  rw [compile_eq] at accepted
  obtain ⟨baseSql, _, hfirst, hrest⟩ := Calling.run_bind_ok.1 accepted
  obtain ⟨s₁, hbaseSql, rfl⟩ := Compiler.run_recorded_ok hfirst
  by_cases harray : (projectedConfig request).hasArrayColumns = true
  · rw [resolveProjected_arrays projected harray] at hrest
    obtain ⟨run⟩ := resolveArrays_ok hrest
    obtain ⟨unnestSql, hsecond, -⟩ := unnest_ok run.unnests
    obtain ⟨s₂, -, hlog⟩ := Compiler.run_recorded_ok hsecond
    -- The later phases only add to the record.
    obtain ⟨l₃, hl₃⟩ := (follows_resolve compiler _ _ _ _).records.log_of_run run.resolves
    obtain ⟨l₄, hl₄⟩ := (follows_aggregate compiler _ _ _).records.log_of_run run.aggregates
    obtain ⟨l₅, hl₅⟩ := (follows_restoreAliases compiler _ _ _ _).records.log_of_run run.restores
    refine ⟨⟨baseCall request, .ok baseSql⟩, ⟨unnestCall run.base _ request.context, .ok unnestSql⟩,
      (l₅ ++ (l₄ ++ l₃)).reverse, baseSql, s₁, run.base, _, _, ?_, rfl, hbaseSql, ?_, rfl, .inr rfl⟩
    · rw [hcalls, hl₅, hl₄, hl₃, hlog]
      simp
    · rw [baseMembers, if_pos harray]
      exact run.prepares
  · rw [resolveProjected_scalars projected harray] at hrest
    obtain ⟨base, aliases, lookups, inner, hprepared, -, -, hsecond, -⟩ := resolveScalars_ok hrest
    obtain ⟨_, -, rfl⟩ := Compiler.run_recorded_ok hsecond
    refine ⟨⟨baseCall request, .ok baseSql⟩, ⟨scalarCall base (lookups.map (applyAliases aliases))
      (projectedConfig request) request.projections request.context, .ok inner⟩, [], baseSql, s₁,
      base, _, _, hcalls, rfl, hbaseSql, ?_, rfl, .inl rfl⟩
    rw [baseMembers, if_neg harray]
    exact hprepared

/-- Orders by the date of their creation, which is selected under an alias and not projected. -/
def createdRequest : Request where
  query :=
    { dimensions := ["orders.id", "orders.owner_ids", "orders.created_at"]
      order := [⟨"orders.created_at", .ascending⟩] }
  tableSchemas :=
    [{ name := "orders"
       sql := "SELECT * FROM orders"
       dimensions :=
         [{ name := "id", sql := "orders.id", type := .number },
          { name := "owner_ids", sql := "orders.owner_ids", type := .stringArray },
          { name := "created_at", sql := "orders.created_at", type := .time,
            «alias» := some "Created" }] }]
  config :=
    { columnConfigs := [.ofType "orders.owner_ids" .stringArray "customers" "id" ["name"]]
      tableSchemas :=
        [{ name := "customers"
           sql := "SELECT * FROM customers"
           dimensions := [{ name := "name", sql := "customers.name", type := .string }] }] }
  columnProjections := some ["orders.id", "orders.owner_ids"]

theorem accepts_createdRequest :
    ((compile (Compiler.sql .underscore).recorded .underscore createdRequest).run
      ((), [])).1.isOk = true := by
  decide +kernel

theorem writtenColumns_createdRequest :
    (createdRequest.query.dimensions ++ createdRequest.query.measures).map
      (writtenColumn .underscore createdRequest.tableSchemas) =
        ["orders__id", "orders__owner_ids", "\"Created\""] := by
  decide +kernel

theorem baseColumns_createdRequest :
    baseColumns .underscore createdRequest = ["orders__id", "orders__owner_ids", "Created"] := by
  decide +kernel

/-- The base schema of the call after the base query refers to columns that the base query puts out,
exactly if its members are selected and an ordered member is one of them or has the safe key of a
selected column. -/
theorem base_references_selected_iff {σ : Type} {style : KeyStyle} {request : Request} {s : σ}
    {sql : String} {t : σ × List Answered}
    (projected : (projectedConfig request).columnConfigs ≠ [])
    (plain : request.config.overrides = [])
    (accepted : (compile (Compiler.sql style).recorded style request).run (s, []) = (.ok sql, t)) :
    ∃ first second later baseSql base others,
      calls (compile (Compiler.sql style).recorded style request) s = first :: second :: later ∧
      first.call = baseCall request ∧
      first.Selects baseSql ((request.query.dimensions ++ request.query.measures).map
        (writtenColumn style request.tableSchemas)) ∧
      second.call.schemas = base :: others ∧ base.sql = baseSql ∧
      (∀ c, c ∈ first.columns style ↔ c ∈ baseColumns style request) ∧
      ((∀ c ∈ baseReferences base, c ∈ first.columns style) ↔
        (∀ m ∈ baseMembers request,
          baseColumn style request.tableSchemas m ∈ baseColumns style request) ∧
        ∀ e ∈ request.query.order,
          (∃ m ∈ baseMembers request, Member.safeKey m = Member.safeKey e.member) ∨
            Member.safeKey e.member ∈ baseColumns style request) := by
  obtain ⟨first, second, later, baseSql, _, prepared, base, others, hcalls, rfl, hsql, hprepared,
    hsecond, hbase⟩ := second_call projected accepted
  have hplain : (projectedConfig request).overrides = [] := plain
  have hcompiled : compileQuery style request.query request.tableSchemas = .ok baseSql :=
    congrArg Prod.fst hsql
  have hcolumns := mem_columns_baseCall hcompiled
  have hreferences : ∀ c, c ∈ baseReferences base ↔ c ∈ baseReferences prepared := by
    intro c
    rcases hbase with rfl | rfl
    · rfl
    · exact mem_baseReferences_flattened (sql_of_isArray hplain hprepared) _ c
  have hbaseSql : base.sql = baseSql := by
    rw [← (preparedBase_ok hprepared).sql]
    rcases hbase with rfl | rfl <;> rfl
  refine ⟨_, second, later, baseSql, base, others, hcalls, rfl, selects_baseCall hcompiled, hsecond,
    hbaseSql, hcolumns, ?_⟩
  rw [← forall_baseReferences hplain hprepared]
  exact forall_congr' fun c => imp_congr (hreferences c) (hcolumns c)

/-- The same orders with all of their columns projected. -/
def createdColumnsRequest : Request := { createdRequest with columnProjections := none }

theorem created_base_references_selected_iff :
    (projectedConfig createdColumnsRequest).columnConfigs ≠ [] ∧
    createdColumnsRequest.config.overrides = [] ∧
    ∃ sql t, (compile (Compiler.sql .underscore).recorded .underscore createdColumnsRequest).run
        ((), []) = (.ok sql, t) ∧
      ∃ first second later baseSql base others,
        calls (compile (Compiler.sql .underscore).recorded .underscore createdColumnsRequest) () =
          first :: second :: later ∧
        first.Selects baseSql ["orders__id", "orders__owner_ids", "\"Created\""] ∧
        second.call.schemas = base :: others ∧ base.sql = baseSql ∧
        ∀ c ∈ baseReferences base, c ∈ ["orders__id", "orders__owner_ids", "Created"] := by
  have projected : (projectedConfig createdColumnsRequest).columnConfigs ≠ [] := by decide +kernel
  obtain ⟨sql, t, accepted⟩ := Calling.exists_run_ok (show ((compile
    (Compiler.sql .underscore).recorded .underscore createdColumnsRequest).run
      ((), [])).1.isOk = true by decide +kernel)
  obtain ⟨first, second, later, baseSql, base, others, hcalls, -, hselects, hschemas, hbase,
    hcolumns, hiff⟩ := base_references_selected_iff projected rfl accepted
  refine ⟨projected, rfl, sql, t, accepted, first, second, later, baseSql, base, others, hcalls,
    writtenColumns_createdRequest ▸ hselects, hschemas, hbase, fun c hc => ?_⟩
  rw [← baseColumns_createdRequest]
  exact (hcolumns c).1 (hiff.2 (by decide +kernel) c hc)

/-- The row id is ordered by a column that the base query does not put out. -/
theorem unlisted_order_key_dangles :
    ∃ sql t first second later baseSql,
      (compile (Compiler.sql .underscore).recorded .underscore createdRequest).run ((), []) =
        (.ok sql, t) ∧
      calls (compile (Compiler.sql .underscore).recorded .underscore createdRequest) () =
        first :: second :: later ∧
      first.Selects baseSql ["orders__id", "orders__owner_ids", "\"Created\""] ∧
      "orders__created_at" ∈ second.call.schemas.flatMap baseReferences ∧
      "orders__created_at" ∉ first.columns .underscore := by
  have projected : (projectedConfig createdRequest).columnConfigs ≠ [] := by decide +kernel
  obtain ⟨sql, t, accepted⟩ := Calling.exists_run_ok accepts_createdRequest
  obtain ⟨first, second, later, baseSql, _, _, _, _, hcalls, rfl, hsql, -⟩ :=
    second_call projected accepted
  have hcompiled : compileQuery .underscore createdRequest.query createdRequest.tableSchemas =
      .ok baseSql := congrArg Prod.fst hsql
  have hreferences : ((calls (compile (Compiler.sql .underscore).recorded .underscore
      createdRequest) ())[1]?.any fun a =>
        (a.call.schemas.flatMap baseReferences).contains "orders__created_at") = true := by
    decide +kernel
  rw [hcalls] at hreferences
  refine ⟨sql, t, _, second, later, baseSql, accepted, hcalls,
    writtenColumns_createdRequest ▸ selects_baseCall hcompiled,
    List.contains_iff_mem.1 hreferences, ?_⟩
  rw [mem_columns_baseCall hcompiled, baseColumns_createdRequest]
  decide

end Resolution
end SemanticLayer
