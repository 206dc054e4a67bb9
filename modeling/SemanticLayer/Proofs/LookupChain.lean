import SemanticLayer.Proofs.GraphBuild
import SemanticLayer.Proofs.JoinChains
import SemanticLayer.Proofs.LookupJoins

/-!
# SemanticLayer.Proofs.LookupChain

The tables of a statement that joins the base table with its lookup tables.

`IsJoined` says what a base schema and its lookup schemas have to agree on. From it, `build_joined`
gives the join graph, with the edge of each column config, and `sourceOf_joined` the chain of
joins, with one clause for each column config in their order.
-/

namespace SemanticLayer
namespace Resolution

/-- The hop from the base table to the lookup table of a column, over the column that the base query
puts the member out under. -/
def baseHop (style : KeyStyle) (schemas : List TableSchema) (c : ColumnConfig) : Hop where
  left := baseName
  right := c.safeName
  on := baseColumn style schemas c.name

/-- One path of one hop for each column. -/
def basePaths (style : KeyStyle) (schemas : List TableSchema) (configs : List ColumnConfig) :
    List JoinPath :=
  configs.map fun c => [.join (baseHop style schemas c)]

/-- The text that joins the lookup table of a column, if there is such a table. -/
def lookupClause (style : KeyStyle) (schemas : List TableSchema) (config : ResolutionConfig)
    (c : ColumnConfig) : Option String :=
  (config.sourceSchema? c.source).map fun source =>
    " LEFT JOIN (" ++ source.sql ++ ") AS " ++ c.safeName ++ "  ON "
      ++ (baseJoin style schemas c).sql

/-- One lookup schema for each column config, over the SQL of its source. -/
structure IsLookups (config : ResolutionConfig) (lookups : List TableSchema) : Prop where
  names : lookups.map (·.name) = config.columnConfigs.map (·.safeName)
  joins : ∀ lookup ∈ lookups, lookup.joins = []
  sources : ∀ c ∈ config.columnConfigs, ∃ lookup ∈ lookups, lookup.name = c.safeName ∧
    (config.sourceSchema? c.source).map (·.sql) = some lookup.sql

/-- A base schema and the lookup schemas that it is to be joined with. -/
structure IsJoined (style : KeyStyle) (schemas : List TableSchema) (config : ResolutionConfig)
    (base : TableSchema) (lookups : List TableSchema) : Prop where
  name : base.name = baseName
  joins : base.joins = config.columnConfigs.map (baseJoin style schemas)
  hops : ∀ c ∈ config.columnConfigs, lookupHop base c = baseHop style schemas c
  lookups : IsLookups config lookups

/-- Column configs with different names, each of which can be joined. -/
structure AllJoinable (style : KeyStyle) (schemas : List TableSchema)
    (configs : List ColumnConfig) : Prop where
  distinct : (configs.map (·.safeName)).Nodup
  joinable : ∀ c ∈ configs, Joinable style schemas c

section

variable {style : KeyStyle} {schemas : List TableSchema}

/-! ## The graph -/

/-- A graph that joins the base table with the lookup table of each column, and nothing else. -/
structure IsBaseGraph (style : KeyStyle) (schemas : List TableSchema) (configs : List ColumnConfig)
    (g : JoinGraph) : Prop where
  coherent : g.Coherent
  edges : g.edges = configs.map (baseEdge style schemas)

theorem condition_baseEdges {g : JoinGraph} {configs : List ColumnConfig}
    (hg : IsBaseGraph style schemas configs g) {c : ColumnConfig} (hc : c ∈ configs) :
    g.condition baseName c.safeName (baseColumn style schemas c.name) =
      some (baseJoin style schemas c).sql := by
  rw [hg.coherent.condition_eq_some_iff, hg.edges]
  exact List.mem_map_of_mem (f := baseEdge style schemas) hc

theorem nodup_keys_baseEdges {configs : List ColumnConfig}
    (h : (configs.map (·.safeName)).Nodup) :
    ((configs.map (baseEdge style schemas)).map JoinEdge.key).Nodup := by
  apply List.Nodup.of_map (fun key => key.2.1)
  rw [List.map_map, List.map_map]
  exact h

variable {config : ResolutionConfig} {base : TableSchema} {lookups : List TableSchema}

theorem IsJoined.nodup_names (h : IsJoined style schemas config base lookups)
    (hall : AllJoinable style schemas config.columnConfigs) :
    ((base :: lookups).map (·.name)).Nodup := by
  rw [List.map_cons, h.name, h.lookups.names]
  refine List.nodup_cons.2 ⟨?_, hall.distinct⟩
  intro hmem
  obtain ⟨c, hc, hname⟩ := List.mem_map.1 hmem
  exact (hall.joinable c hc).ne_base hname

theorem IsJoined.get?_base (h : IsJoined style schemas config base lookups)
    (hall : AllJoinable style schemas config.columnConfigs) :
    (tableSql (base :: lookups)).get? baseName = some base.sql := by
  rw [← h.name]
  exact get?_tableSql (h.nodup_names hall) List.mem_cons_self

/-- The table of a column config has the SQL of its source. -/
theorem IsJoined.get?_lookup (h : IsJoined style schemas config base lookups)
    (hall : AllJoinable style schemas config.columnConfigs) {c : ColumnConfig}
    (hc : c ∈ config.columnConfigs) :
    ∃ sql, (tableSql (base :: lookups)).get? c.safeName = some sql ∧
      (config.sourceSchema? c.source).map (·.sql) = some sql := by
  obtain ⟨lookup, hmem, hname, hsource⟩ := h.lookups.sources c hc
  refine ⟨lookup.sql, ?_, hsource⟩
  rw [← hname]
  exact get?_tableSql (h.nodup_names hall) (List.mem_cons_of_mem _ hmem)

theorem declaredEdges_joined (h : IsJoined style schemas config base lookups)
    (hall : AllJoinable style schemas config.columnConfigs) :
    JoinGraph.declaredEdges (base :: lookups) =
      .ok (config.columnConfigs.map (baseEdge style schemas)) := by
  have hdeclarations : JoinGraph.declarations (base :: lookups) =
      config.columnConfigs.map fun c => (baseName, baseJoin style schemas c) := by
    have hlookups : lookups.flatMap (fun s => s.joins.map fun j => (s.name, j)) = [] := by
      rw [List.flatMap_eq_nil_iff]
      intro lookup hlookup
      rw [h.lookups.joins lookup hlookup]
      rfl
    rw [JoinGraph.declarations, List.flatMap_cons, hlookups, h.joins, h.name, List.append_nil,
      List.map_map]
    rfl
  rw [JoinGraph.declaredEdges, hdeclarations, mapM_eq_ok, List.map_map, List.map_map]
  apply List.map_congr_left
  intro c hc
  rw [Function.comp_apply, Function.comp_apply, edgeOf_baseJoin (hall.joinable c hc)]

theorem build_joined (h : IsJoined style schemas config base lookups)
    (hall : AllJoinable style schemas config.columnConfigs) :
    ∃ g, JoinGraph.build (base :: lookups) (tableSql (base :: lookups)) = .ok g ∧
      IsBaseGraph style schemas config.columnConfigs g := by
  have hdeclared := declaredEdges_joined h hall
  have hkept : (config.columnConfigs.map (baseEdge style schemas)).filter
      (JoinGraph.keeps (tableSql (base :: lookups))) =
        config.columnConfigs.map (baseEdge style schemas) := by
    rw [List.filter_eq_self]
    intro e he
    obtain ⟨c, hc, rfl⟩ := List.mem_map.1 he
    obtain ⟨sql, hget, _⟩ := h.get?_lookup hall hc
    simp [JoinGraph.keeps, Dictionary.contains, baseEdge, h.get?_base hall, hget]
  obtain ⟨g, hg⟩ := JoinGraph.exists_build_iff.2
    ⟨_, hdeclared, hkept.symm ▸ nodup_keys_baseEdges hall.distinct⟩
  obtain ⟨es, hes, hcoherent, hedges⟩ := JoinGraph.edges_of_build hg
  rw [hdeclared] at hes
  cases hes
  exact ⟨g, hg, hcoherent, hedges.trans hkept⟩

/-! ## The chain -/

theorem tableAlias_of_no_dot {table : String} (h : '.' ∉ table.toList) :
    tableAlias table = table := by
  simp [tableAlias, h]

theorem clauseOf_baseHop (h : IsJoined style schemas config base lookups)
    (hall : AllJoinable style schemas config.columnConfigs) {g : JoinGraph}
    (hg : IsBaseGraph style schemas config.columnConfigs g) {c : ColumnConfig}
    (hc : c ∈ config.columnConfigs) :
    ∃ clause, JoinChain.clauseOf (tableSql (base :: lookups)) g (baseHop style schemas c) =
        .ok clause ∧
      lookupClause style schemas config c = some clause.render := by
  obtain ⟨sql, hget, hsource⟩ := h.get?_lookup hall hc
  obtain ⟨source, hschema, rfl⟩ := Option.map_eq_some_iff.1 hsource
  have hcondition := condition_baseEdges hg hc
  refine ⟨⟨baseHop style schemas c, source.sql, (baseJoin style schemas c).sql⟩, ?_, ?_⟩
  · simp [JoinChain.clauseOf, JoinChain.sqlOf, baseHop, hget, hcondition]
  · have hrender : JoinClause.render ⟨baseHop style schemas c, source.sql,
        (baseJoin style schemas c).sql⟩ = " LEFT JOIN (" ++ source.sql ++ ") AS "
          ++ tableAlias c.safeName ++ "  ON " ++ (baseJoin style schemas c).sql := rfl
    rw [hrender, tableAlias_of_no_dot c.dot_not_mem_safeName, lookupClause, hschema]
    rfl

theorem clauses_baseHops {tables : Dictionary} {g : JoinGraph} {configs : List ColumnConfig}
    (hclause : ∀ c ∈ configs, ∃ clause,
      JoinChain.clauseOf tables g (baseHop style schemas c) = .ok clause ∧
        lookupClause style schemas config c = some clause.render) :
    ∃ clauses, (configs.map (baseHop style schemas)).mapM (JoinChain.clauseOf tables g) =
        .ok clauses ∧
      configs.map (lookupClause style schemas config) =
        clauses.map fun clause => some clause.render := by
  rw [List.mapM_map]
  obtain ⟨clauses, hclauses⟩ := exists_mapM_ok fun c hc => (hclause c hc).imp fun _ h => h.1
  refine ⟨clauses, hclauses, (map_of_mapM_ok hclauses fun c hc clause hok => ?_).symm⟩
  obtain ⟨clause', hok', hrender⟩ := hclause c hc
  rw [hrender, Except.ok.inj (hok.symm.trans hok')]

theorem IsJoined.lookupPaths_eq (h : IsJoined style schemas config base lookups) :
    lookupPaths base config.columnConfigs = basePaths style schemas config.columnConfigs := by
  apply List.map_congr_left
  intro c hc
  rw [h.hops c hc]

theorem origin_of_mem_basePaths {configs : List ColumnConfig} {path : JoinPath}
    (h : path ∈ basePaths style schemas configs) : path.origin = some baseName := by
  obtain ⟨c, _, rfl⟩ := List.mem_map.1 h
  rfl

theorem hops_basePaths (configs : List ColumnConfig) :
    (basePaths style schemas configs).flatMap JoinPath.hops =
      configs.map (baseHop style schemas) := by
  rw [basePaths, List.flatMap_map]
  exact List.map_eq_flatMap.symm

theorem validate_basePaths {configs : List ColumnConfig}
    (hbase : ∀ c ∈ configs, c.safeName ≠ baseName) :
    JoinPath.validate (basePaths style schemas configs) = .ok () := by
  apply if_neg
  rw [JoinPath.anyLoop, basePaths, List.any_map, Bool.not_eq_true, List.any_eq_false]
  intro c hc
  simpa [JoinPath.hasLoop, JoinPath.origin, JoinPath.targets, JoinPath.hops, PathNode.left,
    PathNode.hop?, baseHop] using Ne.symm (hbase c hc)

theorem joinedHops_basePaths (configs : List ColumnConfig) :
    JoinChain.joinedHops (basePaths style schemas configs) =
      configs.map (baseHop style schemas) := by
  cases configs with
  | nil => rfl
  | cons c rest =>
    rw [← hops_basePaths]
    rfl

theorem follows_basePaths {tables : Dictionary} {g : JoinGraph} {configs : List ColumnConfig}
    (hne : configs ≠ []) (hdistinct : (configs.map (·.safeName)).Nodup) {sql : String}
    (hbase : tables.get? baseName = some sql) {clauses : List JoinClause}
    (hclauses : (configs.map (baseHop style schemas)).mapM (JoinChain.clauseOf tables g) =
      .ok clauses) :
    JoinChain.Follows ⟨baseName, sql, clauses⟩ (basePaths style schemas configs) tables g := by
  have hrights : ((configs.map (baseHop style schemas)).map (·.right)).Nodup := by
    simpa [Function.comp_def, baseHop] using hdistinct
  refine ⟨mt List.map_eq_nil_iff.1 hne, fun path => origin_of_mem_basePaths, hbase, ?_, ?_⟩
  · rw [joinedHops_basePaths]
    exact oneSource_of_nodup hrights
  · rw [joinedHops_basePaths, firstHops_of_nodup hrights fun _ _ => List.not_mem_nil, hclauses]

/-- The base table is joined with each lookup table once, in the order of the column configs and on
the declared conditions. -/
theorem sourceOf_joined (h : IsJoined style schemas config base lookups)
    (hall : AllJoinable style schemas config.columnConfigs) (hne : config.columnConfigs ≠ [])
    {q : Query} (hpaths : q.joinPaths = lookupPaths base config.columnConfigs) :
    ∃ chain clauses, Select.sourceOf q (base :: lookups) = .ok chain ∧
      config.columnConfigs.map (lookupClause style schemas config) = clauses.map some ∧
      chain.renderFrom = "(" ++ base.sql ++ ") AS " ++ baseName ++ String.join clauses := by
  obtain ⟨g, hbuild, hg⟩ := build_joined h hall
  have hbase := h.get?_base hall
  obtain ⟨clauses, hclauses, hrenders⟩ :=
    clauses_baseHops fun c hc => clauseOf_baseHop h hall hg hc
  have hfollows := follows_basePaths hne hall.distinct hbase hclauses
  have hvalid : JoinPath.validate (basePaths style schemas config.columnConfigs) = .ok () :=
    validate_basePaths fun c hc => (hall.joinable c hc).ne_base
  have hmany : (base :: lookups).length ≠ 1 := by
    have hlength := congrArg List.length h.lookups.names
    simp only [List.length_map] at hlength
    have hpos := List.length_pos_iff.2 hne
    simp only [List.length_cons]
    omega
  rw [h.lookupPaths_eq] at hpaths
  refine ⟨⟨baseName, base.sql, clauses⟩, clauses.map (·.render), ?_, ?_, ?_⟩
  · rw [sourceOf_eq_ok_iff hmany, joinedChain_eq_ok_iff, hpaths]
    exact ⟨g, hbuild, hvalid, hfollows⟩
  · rw [hrenders, List.map_map]
    rfl
  · rw [JoinChain.renderFrom, tableAlias_of_no_dot dot_not_mem_baseName, JoinChain.renderClauses]

end

end Resolution
end SemanticLayer
