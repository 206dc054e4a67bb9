import SemanticLayer.Proofs.Base

/-!
# SemanticLayer.Proofs.Runs

Runs of the resolution pipelines, cut at their compiler calls. Nothing here depends on the compiler:
each phase is opened once into the call it makes and what it does with the answer, and `ArrayRun`
holds the schemas that array resolution hands from phase to phase.
-/

namespace SemanticLayer
namespace Resolution

/-! ## Calls -/

def baseCall (request : Request) : Call where
  query := request.query
  schemas := request.tableSchemas
  context := request.context

def unnestCall (base : TableSchema) (config : ResolutionConfig) (context : Option ContextParams) :
    Call where
  query := allDimensions (flattened config base)
  schemas := [flattened config base]
  context := context

/-- The call that joins the lookup tables. The projections are given by their safe keys. -/
def resolveCall (base : TableSchema) (lookups : List TableSchema) (config : ResolutionConfig)
    (projections : List String) (context : Option ContextParams) : Call where
  query :=
    { dimensions := expandMembers base.name config projections
      joinPaths := lookupPaths base config.columnConfigs }
  schemas := base :: lookups
  context := context

def aggregateCall (config : ResolutionConfig) (resolved : TableSchema) (rowId : Dimension)
    (context : Option ContextParams) : Call where
  query := groupedQuery (grouped config resolved rowId)
  schemas := [grouped config resolved rowId]
  context := context

def aliasCall (aliases : Dictionary) (aggregated : TableSchema) (context : Option ContextParams) :
    Call where
  query := allDimensions (applyAliases aliases aggregated)
  schemas := [applyAliases aliases aggregated]
  context := context

/-- The only call of scalar resolution: it joins the lookup tables and selects the row id. -/
def scalarCall (base : TableSchema) (lookups : List TableSchema) (config : ResolutionConfig)
    (projections : List String) (context : Option ContextParams) : Call where
  query :=
    { dimensions := expandMembers base.name config projections
        ++ [Member.qualify base.name rowIdName]
      joinPaths := lookupPaths base config.columnConfigs }
  schemas := base :: lookups
  context := context

/-! ## Phases -/

/-- The rows are put in the order of the row id, which is left out. -/
theorem orderByRowId_rowIdName (inner : String) :
    orderByRowId inner rowIdName = "SELECT * EXCLUDE (\"__row_id\") FROM (" ++ inner
      ++ ") AS __row_id_ordered ORDER BY \"__row_id\"" := by
  have hquoted : quoteIdentifier rowIdName = "\"__row_id\"" := by decide +kernel
  unfold orderByRowId
  rw [hquoted, String.append_assoc]
  simp only [String.reduceAppend]

variable {σ : Type} {compiler : Compiler σ} {config : ResolutionConfig}
  {context : Option ContextParams} {s t : σ}

theorem unnest_ok {base next : TableSchema}
    (h : (unnest compiler base config context).run s = (.ok next, t)) :
    ∃ sql, (compiler (unnestCall base config context)).run s = (.ok sql, t) ∧
      next = wrapperSchema sql base := by
  rw [unnest] at h
  obtain ⟨sql, s₁, hcall, h⟩ := Calling.run_bind_ok.1 h
  cases h
  exact ⟨sql, hcall, rfl⟩

theorem resolve_ok {base next : TableSchema} {projections : List String}
    (h : (resolve compiler base config projections context).run s = (.ok next, t)) :
    ∃ lookups sql dimensions, lookupSchemas config = .ok lookups ∧
      (compiler (resolveCall base lookups config (projections.map Member.safeKey) context)).run s
        = (.ok sql, t) ∧
      (projections.map Member.safeKey).mapM (resolvedDimensions (wrapperSchema sql base) lookups)
        = .ok dimensions ∧
      next = { wrapperSchema sql base with dimensions := dimensions.flatten } := by
  rw [resolve] at h
  obtain ⟨lookups, hl, h⟩ := Calling.run_ofExcept_bind_ok.1 h
  obtain ⟨sql, s₁, hcall, h⟩ := Calling.run_bind_ok.1 h
  obtain ⟨dimensions, hd, h⟩ := Calling.run_ofExcept_bind_ok.1 h
  cases h
  exact ⟨lookups, sql, dimensions, hl, hcall, hd, rfl⟩

theorem aggregate_ok {resolved next : TableSchema}
    (h : (aggregate compiler resolved config context).run s = (.ok next, t)) :
    ∃ rowId sql, resolved.dimension? rowIdName = some rowId ∧
      (compiler (aggregateCall config resolved rowId context)).run s = (.ok sql, t) ∧
      next = wrapperSchema (orderByRowId sql rowIdName)
        { grouped config resolved rowId with dimensions := [], joins := [] } := by
  rw [aggregate] at h
  split at h
  · cases h
  · rename_i rowId hrow
    obtain ⟨sql, s₁, hcall, h⟩ := Calling.run_bind_ok.1 h
    cases h
    exact ⟨rowId, sql, hrow, hcall, rfl⟩

theorem restoreAliases_ok {aggregated : TableSchema} {schemas : List TableSchema} {sql : String}
    (h : (restoreAliases compiler aggregated schemas config context).run s = (.ok sql, t)) :
    ∃ aliases, aliasMap schemas config = .ok aliases ∧
      (compiler (aliasCall aliases aggregated context)).run s = (.ok sql, t) := by
  rw [restoreAliases] at h
  obtain ⟨aliases, ha, h⟩ := Calling.run_ofExcept_bind_ok.1 h
  exact ⟨aliases, ha, h⟩

/-! ## Pipelines -/

/-- A run of array resolution that ends with `sql`: the schema that each phase hands on, and the
state of the compiler after it. -/
structure ArrayRun (compiler : Compiler σ) (style : KeyStyle) (request : Request)
    (baseSql : String) (config : ResolutionConfig) (s : σ) (sql : String) (t : σ) where
  base : TableSchema
  unnested : TableSchema
  resolved : TableSchema
  aggregated : TableSchema
  afterUnnest : σ
  afterResolve : σ
  afterAggregate : σ
  prepares : preparedBase style baseSql request config request.projections = .ok base
  unnests : (unnest compiler base config.safeKeyed request.context).run s =
    (.ok unnested, afterUnnest)
  resolves : (resolve compiler unnested config.safeKeyed (request.projections ++ [rowIdName])
    request.context).run afterUnnest = (.ok resolved, afterResolve)
  aggregates : (aggregate compiler resolved config.safeKeyed request.context).run afterResolve =
    (.ok aggregated, afterAggregate)
  restores : (restoreAliases compiler aggregated request.tableSchemas config.safeKeyed
    request.context).run afterAggregate = (.ok sql, t)

theorem resolveArrays_ok {style : KeyStyle} {request : Request} {baseSql sql : String}
    (h : (resolveArrays compiler style request baseSql config).run s = (.ok sql, t)) :
    Nonempty (ArrayRun compiler style request baseSql config s sql t) := by
  rw [resolveArrays] at h
  obtain ⟨base, hbase, h⟩ := Calling.run_ofExcept_bind_ok.1 h
  obtain ⟨unnested, s₁, hunnest, h⟩ := Calling.run_bind_ok.1 h
  obtain ⟨resolved, s₂, hresolve, h⟩ := Calling.run_bind_ok.1 h
  obtain ⟨aggregated, s₃, haggregate, h⟩ := Calling.run_bind_ok.1 h
  exact ⟨⟨base, unnested, resolved, aggregated, s₁, s₂, s₃, hbase, hunnest, hresolve, haggregate,
    h⟩⟩

theorem resolveScalars_ok {style : KeyStyle} {request : Request} {baseSql sql : String}
    (h : (resolveScalars compiler style request baseSql config).run s = (.ok sql, t)) :
    ∃ base aliases lookups inner,
      preparedBase style baseSql request config request.query.members = .ok base ∧
      aliasMap request.tableSchemas config = .ok aliases ∧
      lookupSchemas config = .ok lookups ∧
      (compiler (scalarCall base (lookups.map (applyAliases aliases)) config request.projections
        request.context)).run s = (.ok inner, t) ∧
      sql = "SELECT * EXCLUDE (\"__row_id\") FROM (" ++ inner
        ++ ") AS __row_id_ordered ORDER BY \"__row_id\"" := by
  rw [resolveScalars] at h
  obtain ⟨base, hbase, h⟩ := Calling.run_ofExcept_bind_ok.1 h
  obtain ⟨aliases, ha, h⟩ := Calling.run_ofExcept_bind_ok.1 h
  obtain ⟨lookups, hl, h⟩ := Calling.run_ofExcept_bind_ok.1 h
  obtain ⟨inner, s₃, hcall, h⟩ := Calling.run_bind_ok.1 h
  cases h
  exact ⟨base, aliases, lookups, inner, hbase, ha, hl, hcall, orderByRowId_rowIdName inner⟩

/-- The config of the columns that are resolved. -/
def projectedConfig (request : Request) : ResolutionConfig :=
  request.config.restrictTo request.projections

/-- What is done with the SQL of the base query. -/
def resolveProjected (compiler : Compiler σ) (style : KeyStyle) (request : Request)
    (baseSql : String) : Calling σ String :=
  if (projectedConfig request).columnConfigs.isEmpty then pure baseSql
  else if (projectedConfig request).hasArrayColumns then
    resolveArrays compiler style request baseSql (projectedConfig request)
  else resolveScalars compiler style request baseSql (projectedConfig request)

theorem resolveProjected_arrays {request : Request}
    (hne : (projectedConfig request).columnConfigs ≠ [])
    (harray : (projectedConfig request).hasArrayColumns = true) (compiler : Compiler σ)
    (style : KeyStyle) (baseSql : String) :
    resolveProjected compiler style request baseSql =
      resolveArrays compiler style request baseSql (projectedConfig request) := by
  rw [resolveProjected, if_neg (by simpa using hne), if_pos harray]

theorem resolveProjected_scalars {request : Request}
    (hne : (projectedConfig request).columnConfigs ≠ [])
    (hscalar : ¬ (projectedConfig request).hasArrayColumns = true) (compiler : Compiler σ)
    (style : KeyStyle) (baseSql : String) :
    resolveProjected compiler style request baseSql =
      resolveScalars compiler style request baseSql (projectedConfig request) := by
  rw [resolveProjected, if_neg (by simpa using hne), if_neg hscalar]

theorem compile_eq (compiler : Compiler σ) (style : KeyStyle) (request : Request) :
    compile compiler style request =
      compiler (baseCall request) >>= resolveProjected compiler style request := rfl

/-! ## A request -/

/-- Orders with an array of owners and a tag, each to be looked up in a table of its own. -/
def ordersRequest : Request where
  query :=
    { dimensions := ["orders.id", "orders.owner_ids", "orders.tag_id"]
      order := [⟨"orders.id", .descending⟩] }
  tableSchemas :=
    [{ name := "orders"
       sql := "SELECT * FROM orders"
       dimensions :=
         [{ name := "id", sql := "orders.id", type := .number, «alias» := some "Order \"ID\"" },
          { name := "owner_ids", sql := "orders.owner_ids", type := .stringArray,
            «alias» := some "Owners" },
          { name := "tag_id", sql := "orders.tag_id", type := .number }] }]
  config :=
    { columnConfigs :=
        [.ofType "orders.owner_ids" .stringArray "customers" "id" ["name", "email"],
         .ofType "orders.tag_id" .number "tags" "id" ["label"]]
      tableSchemas :=
        [{ name := "customers"
           sql := "SELECT * FROM customers"
           dimensions :=
             [{ name := "name", sql := "customers.name", type := .string, «alias» := some "Name" },
              { name := "email", sql := "customers.email", type := .string,
                «alias» := some "E-mail" }] },
         { name := "tags"
           sql := "SELECT * FROM tags"
           dimensions := [{ name := "label", sql := "tags.label", type := .string }] }] }

end Resolution
end SemanticLayer
