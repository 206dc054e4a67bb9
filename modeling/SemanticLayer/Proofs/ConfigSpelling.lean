import Mathlib.Data.List.Perm.Basic
import SemanticLayer.Proofs.ConfigAgreement
import SemanticLayer.Proofs.JoinCall

/-!
# SemanticLayer.Proofs.ConfigSpelling

Column configs whose names are written in another way, such as by their safe keys.

Resolution compares the names of column configs by safe key, with one exception: the base table
declares its joins over the columns of the members as they are written. These are the `keyColumns`
of a request. As long as they stay the same, so does the whole run. They have to: an accepted
statement finds a declared edge for each hop to a lookup table, and the hops start from columns that
do not depend on the spelling (`keyColumns_of_accepted`). `compile_respelled` puts both together.
-/

namespace SemanticLayer

/-- The request with other columns to resolve. -/
def Request.withColumns (request : Request) (columns : List ColumnConfig) : Request :=
  request.withLookups columns request.config.tableSchemas

namespace Resolution

/-! ## Hops of an accepted statement -/

theorem joinedHops_lookupPaths (base : TableSchema) (configs : List ColumnConfig) :
    JoinChain.joinedHops (lookupPaths base configs) = configs.map (lookupHop base) := by
  cases configs with
  | nil => rfl
  | cons c rest =>
    change (lookupPaths base (c :: rest)).flatMap JoinPath.hops = (c :: rest).map (lookupHop base)
    rw [lookupPaths, List.flatMap_map]
    exact List.map_eq_flatMap.symm

/-- Hops to the same lookup table are the same, so each is the first of its kind. -/
theorem lookupHop_mem_firstHops (base : TableSchema) {configs : List ColumnConfig}
    {c : ColumnConfig} (hc : c ∈ configs) :
    lookupHop base c ∈ firstHops [] (configs.map (lookupHop base)) := by
  obtain ⟨first, hfirst, hright⟩ :=
    exists_firstHop (List.mem_map_of_mem (f := lookupHop base) hc) List.not_mem_nil
  obtain ⟨d, -, rfl⟩ := List.mem_map.1 (mem_of_mem_firstHops hfirst).1
  have hsafe : d.safeName = c.safeName := hright
  have hsame : lookupHop base d = lookupHop base c := by rw [lookupHop, lookupHop, hsafe]
  rwa [← hsame]

/-- A query that joins the base table of a request with its lookup tables, and a chain of joins for
it. -/
structure JoinsLookups (style : KeyStyle) (request : Request) (base : TableSchema)
    (lookups : List TableSchema) (q : Query) (chain : JoinChain) : Prop where
  name : base.name = baseName
  joins : base.joins =
    (projectedConfig request).columnConfigs.map (baseJoin style request.tableSchemas)
  headings : base.headings = (baseMembers request).map (baseHeading style request.tableSchemas) ++
    [.plain rowIdName]
  isLookups : IsLookups (projectedConfig request) lookups
  paths : q.joinPaths = lookupPaths base (projectedConfig request).columnConfigs
  source : Select.sourceOf q (base :: lookups) = .ok chain

section

variable {style : KeyStyle} {request : Request} {base : TableSchema} {lookups : List TableSchema}
  {q : Query} {chain : JoinChain}

/-- Every edge of the graph is read from a join of the base table. -/
theorem JoinsLookups.exists_declared (h : JoinsLookups style request base lookups q chain)
    {known : Dictionary} {graph : JoinGraph}
    (hbuild : JoinGraph.build (base :: lookups) known = .ok graph) {e : JoinEdge}
    (he : e ∈ graph.edges) :
    ∃ c ∈ (projectedConfig request).columnConfigs, joinedTable? c = some e.target ∧
      e.column = baseColumn style request.tableSchemas c.name := by
  obtain ⟨es, hes, -, hedges⟩ := JoinGraph.edges_of_build hbuild
  rw [hedges] at he
  obtain ⟨declaration, hdeclared, hread⟩ := exists_of_mem_mapM_ok hes (List.mem_of_mem_filter he)
  obtain ⟨s, hs, hmem⟩ := List.mem_flatMap.1 hdeclared
  obtain ⟨j, hj, rfl⟩ := List.mem_map.1 hmem
  rcases List.mem_cons.1 hs with rfl | hs
  · rw [h.joins] at hj
    obtain ⟨c, hc, rfl⟩ := List.mem_map.1 hj
    dsimp only at hread
    rw [h.name] at hread
    exact ⟨c, hc, edgeOf_baseJoin_ok hread⟩
  · rw [h.isLookups.joins s hs] at hj
    cases hj

/-- Every hop follows an edge of the graph. -/
theorem JoinsLookups.exists_joined (h : JoinsLookups style request base lookups q chain)
    {c : ColumnConfig} (hc : c ∈ (projectedConfig request).columnConfigs) :
    ∃ d ∈ (projectedConfig request).columnConfigs, joinedTable? d = some c.safeName ∧
      baseColumn style request.tableSchemas d.name = (lookupHop base c).on := by
  obtain ⟨lookup, hlookup, -⟩ := h.isLookups.sources c hc
  have hlength : (base :: lookups).length ≠ 1 := by simpa using List.ne_nil_of_mem hlookup
  obtain ⟨graph, hbuild, -, hfollows⟩ :=
    joinedChain_eq_ok_iff.1 ((sourceOf_eq_ok_iff hlength).1 h.source)
  have hclauses := hfollows.clauses_eq
  rw [h.paths, joinedHops_lookupPaths] at hclauses
  obtain ⟨clause, -, hclause⟩ := exists_of_mapM_ok hclauses (lookupHop_mem_firstHops base hc)
  obtain ⟨-, -, hcondition⟩ := JoinChain.clauseOf_eq_ok_iff.1 hclause
  obtain ⟨-, -, hcoherent, -⟩ := JoinGraph.edges_of_build hbuild
  obtain ⟨d, hd, htable, hcolumn⟩ :=
    h.exists_declared hbuild (hcoherent.condition_eq_some_iff.1 hcondition)
  exact ⟨d, hd, htable, hcolumn.symm⟩

theorem JoinsLookups.on_lookupHop (h : JoinsLookups style request base lookups q chain)
    (c : ColumnConfig) : (lookupHop base c).on =
      columnOfKey style request.tableSchemas (baseMembers request) c.safeName := by
  rw [← alias_find?_baseHeadings, ← h.headings, TableSchema.find?_headings, Option.bind_map]
  rfl

/-- Every lookup table is the end of a declared join, and there are no more joins than lookup
tables. So each join is declared over the column that the hops to its lookup table start from. -/
theorem JoinsLookups.baseColumn_eq (h : JoinsLookups style request base lookups q chain)
    (distinct : ((projectedConfig request).columnConfigs.map (·.safeName)).Nodup)
    {c : ColumnConfig} (hc : c ∈ (projectedConfig request).columnConfigs) :
    ∃ table, joinedTable? c = some table ∧
      baseColumn style request.tableSchemas c.name =
        columnOfKey style request.tableSchemas (baseMembers request) table := by
  have hnodup : (((projectedConfig request).columnConfigs.map (·.safeName)).map some).Nodup :=
    distinct.map fun _ _ => Option.some.inj
  have hsubset : ((projectedConfig request).columnConfigs.map (·.safeName)).map some ⊆
      (projectedConfig request).columnConfigs.map joinedTable? := by
    intro table htable
    rw [List.map_map] at htable
    obtain ⟨d, hd, rfl⟩ := List.mem_map.1 htable
    obtain ⟨e, he, hjoined, -⟩ := h.exists_joined hd
    exact List.mem_map.2 ⟨e, he, hjoined⟩
  have hperm := (List.subperm_of_subset hnodup hsubset).perm_of_length_le (by simp)
  have htable := hperm.mem_iff.2 (List.mem_map_of_mem hc)
  rw [List.map_map] at htable
  obtain ⟨d, hd, htable⟩ := List.mem_map.1 htable
  obtain ⟨e, he, hjoined, hcolumn⟩ := h.exists_joined hd
  have hsame : e = c := List.inj_on_of_nodup_map (hperm.nodup_iff.1 hnodup) he hc
    (hjoined.trans htable)
  exact ⟨d.safeName, hsame ▸ hjoined, by rw [← hsame, hcolumn, h.on_lookupHop]⟩

end

/-! ## Accepted requests -/

theorem sourceOf_of_run_sql {σ : Type} {style : KeyStyle} {call : Call} {s t : σ} {sql : String}
    (hfilters : call.query.filters = [])
    (h : (Compiler.sql style call).run s = (.ok sql, t)) :
    ∃ chain, Select.sourceOf call.query call.schemas = .ok chain := by
  rw [Compiler.run_sql, Prod.mk.injEq, compileQuery_eq_ok] at h
  obtain ⟨⟨statement, hs, -⟩, -⟩ := h
  have hsource := (Select.ofQuery_ok hs).1
  rw [Select.schemasFor_of_no_filters hfilters] at hsource
  exact ⟨_, hsource⟩

theorem exists_joinsLookups {σ : Type} {style : KeyStyle} {request : Request} {s t : σ}
    {sql : String} (projected : (projectedConfig request).columnConfigs ≠ [])
    (accepted : (compile (Compiler.sql style) style request).run s = (.ok sql, t)) :
    ∃ base lookups q chain, JoinsLookups style request base lookups q chain := by
  rw [compile_eq] at accepted
  obtain ⟨baseSql, _, -, hrest⟩ := Calling.run_bind_ok.1 accepted
  by_cases harray : (projectedConfig request).hasArrayColumns = true
  · rw [resolveProjected_arrays projected harray] at hrest
    obtain ⟨run⟩ := resolveArrays_ok hrest
    obtain ⟨lookups, _, _, hlookups, hcall, -, -⟩ := resolve_ok run.resolves
    obtain ⟨chain, hsource⟩ := sourceOf_of_run_sql rfl hcall
    refine ⟨run.unnested, lookups, _, chain, run.name_unnested, run.joins_unnested, ?_,
      (isLookups_of_ok hlookups).of_safeKeyed, lookupPaths_safeKeyed _ _, hsource⟩
    rw [run.headings_unnested, run.isBase.headings, baseMembers, if_pos harray]
  · rw [resolveProjected_scalars projected harray] at hrest
    obtain ⟨base, aliases, lookups, _, hbase, -, hlookups, hcall, -⟩ := resolveScalars_ok hrest
    have isBase := preparedBase_ok hbase
    obtain ⟨chain, hsource⟩ := sourceOf_of_run_sql rfl hcall
    refine ⟨base, _, _, chain, isBase.name, isBase.joins, ?_,
      (isLookups_of_ok hlookups).applyAliases aliases, rfl, hsource⟩
    rw [isBase.headings, baseMembers, if_neg harray]

/-! ## Other spellings -/

/-- The columns of the base query that the lookup tables of a request are joined over. -/
def keyColumns (style : KeyStyle) (request : Request) : List String :=
  (projectedConfig request).columnConfigs.map fun c => baseColumn style request.tableSchemas c.name

/-- An accepted request has key columns that can be told from the keyed configs alone. -/
theorem keyColumns_of_accepted {σ : Type} {style : KeyStyle} {request : Request} {s t : σ}
    {sql : String} (distinct : ((projectedConfig request).columnConfigs.map (·.safeName)).Nodup)
    (accepted : (compile (Compiler.sql style) style request).run s = (.ok sql, t)) :
    keyColumns style request = ((projectedConfig request).columnConfigs.map ColumnConfig.keyed).map
      fun c => columnOfKey style request.tableSchemas (baseMembers request)
        ((joinedTable? c).getD "") := by
  rw [keyColumns, List.map_map]
  apply List.map_congr_left
  intro c hc
  obtain ⟨_, _, _, _, hjoins⟩ := exists_joinsLookups (List.ne_nil_of_mem hc) accepted
  obtain ⟨table, htable, hcolumn⟩ := hjoins.baseColumn_eq distinct hc
  rw [hcolumn, Function.comp_apply, joinedTable?_keyed, htable, Option.getD_some]

section

variable {style : KeyStyle} {request : Request} {columns : List ColumnConfig}
  (respelled : columns.map ColumnConfig.keyed =
    request.config.columnConfigs.map ColumnConfig.keyed)

include respelled

theorem agrees_of_respelled :
    (projectedConfig (request.withColumns columns)).Agrees (projectedConfig request) := by
  refine ⟨?_, rfl, fun _ _ => rfl⟩
  have hfilter : ∀ configs : List ColumnConfig,
      (configs.filter fun c => c.safeName ∈ request.projections.map Member.safeKey).map
          ColumnConfig.keyed =
        (configs.map ColumnConfig.keyed).filter
          fun c => c.safeName ∈ request.projections.map Member.safeKey := by
    intro configs
    simp only [List.filter_map, Function.comp_def, ColumnConfig.safeName_keyed]
  calc (columns.filter _).map ColumnConfig.keyed
      = (columns.map ColumnConfig.keyed).filter _ := hfilter columns
    _ = (request.config.columnConfigs.map ColumnConfig.keyed).filter _ := by rw [respelled]
    _ = (request.config.columnConfigs.filter _).map ColumnConfig.keyed := (hfilter _).symm

theorem baseMembers_respelled :
    baseMembers (request.withColumns columns) = baseMembers request := by
  rw [baseMembers, baseMembers, (agrees_of_respelled respelled).hasArrayColumns_eq]
  rfl

/-- A declared join is made from the key column and the keyed config. -/
theorem baseJoins_respelled
    (same : keyColumns style (request.withColumns columns) = keyColumns style request) :
    (projectedConfig (request.withColumns columns)).columnConfigs.map
        (baseJoin style request.tableSchemas) =
      (projectedConfig request).columnConfigs.map (baseJoin style request.tableSchemas) := by
  let join (x : String × ColumnConfig) : JoinDeclaration :=
    { sql := columnOf baseName x.1 ++ " = " ++ x.2.safeName ++ "." ++ x.2.joinColumn }
  have hjoin : ∀ configs : List ColumnConfig,
      configs.map (baseJoin style request.tableSchemas) =
        ((configs.map fun c => baseColumn style request.tableSchemas c.name).zip
          (configs.map ColumnConfig.keyed)).map join := by
    intro configs
    rw [List.zip_map', List.map_map]
    apply List.map_congr_left
    intro c _
    simp only [Function.comp_apply, join, c.safeName_keyed]
    rfl
  have hkeyed := (agrees_of_respelled respelled).columns
  rw [keyColumns, keyColumns] at same
  rw [hjoin, hjoin, hkeyed]
  exact congrArg (fun xs => (List.zip xs _).map join) same

end

open Calling (calls)

/-- Column configs may be given under other names with the same safe keys, for instance under the
safe keys themselves. If the names stand for the same columns of the base query, resolution makes
the same calls with the same result. Only then is an accepted request accepted in the other spelling
as well, provided that no two of its columns have the same safe key. -/
theorem compile_respelled {request : Request} {columns : List ColumnConfig}
    (respelled : columns.map ColumnConfig.keyed =
      request.config.columnConfigs.map ColumnConfig.keyed) (style : KeyStyle) :
    (keyColumns style (request.withColumns columns) = keyColumns style request →
      ∀ {σ : Type} (compiler : Compiler σ) (s : σ),
        calls (compile compiler.recorded style (request.withColumns columns)) s =
          calls (compile compiler.recorded style request) s ∧
        (compile compiler style (request.withColumns columns)).run s =
          (compile compiler style request).run s) ∧
    (((projectedConfig request).columnConfigs.map (·.safeName)).Nodup →
      ∀ {sql : String}, (compile (Compiler.sql style) style request).run () = (.ok sql, ()) →
        ((∃ other, (compile (Compiler.sql style) style (request.withColumns columns)).run () =
            (.ok other, ())) ↔
          keyColumns style (request.withColumns columns) = keyColumns style request)) := by
  have hcompile : keyColumns style (request.withColumns columns) = keyColumns style request →
      ∀ {σ : Type} (compiler : Compiler σ),
        compile compiler style (request.withColumns columns) = compile compiler style request :=
    fun same _ => compile_congr (agrees_of_respelled respelled) (baseJoins_respelled respelled same)
  constructor
  · intro same σ compiler s
    rw [hcompile same compiler.recorded, hcompile same compiler]
    exact ⟨rfl, rfl⟩
  · intro distinct sql accepted
    constructor
    · rintro ⟨other, hother⟩
      have hagrees := agrees_of_respelled respelled
      have hdistinct := hagrees.map_eq ColumnConfig.safeName_keyed ▸ distinct
      rw [keyColumns_of_accepted hdistinct hother, keyColumns_of_accepted distinct accepted,
        hagrees.columns, baseMembers_respelled respelled]
      rfl
    · intro same
      rw [hcompile same]
      exact ⟨sql, accepted⟩

/-- The tag of an order has no alias, so its config may be written either way. -/
theorem tags_compile_respelled :
    (tagsRequest.config.columnConfigs.modify 1 ColumnConfig.keyed).map ColumnConfig.keyed =
        tagsRequest.config.columnConfigs.map ColumnConfig.keyed ∧
      keyColumns .underscore (tagsRequest.withColumns
          (tagsRequest.config.columnConfigs.modify 1 ColumnConfig.keyed)) =
        keyColumns .underscore tagsRequest ∧
      ((projectedConfig tagsRequest).columnConfigs.map (·.safeName)).Nodup ∧
      ∃ sql, (compile (Compiler.sql .underscore) .underscore tagsRequest).run () =
          (.ok sql, ()) ∧
        (compile (Compiler.sql .underscore) .underscore (tagsRequest.withColumns
          (tagsRequest.config.columnConfigs.modify 1 ColumnConfig.keyed))).run () =
            (.ok sql, ()) ∧
        ((∃ other, (compile (Compiler.sql .underscore) .underscore (tagsRequest.withColumns
            (tagsRequest.config.columnConfigs.modify 1 ColumnConfig.keyed))).run () =
              (.ok other, ())) ↔
          keyColumns .underscore (tagsRequest.withColumns
              (tagsRequest.config.columnConfigs.modify 1 ColumnConfig.keyed)) =
            keyColumns .underscore tagsRequest) := by
  have respelled : (tagsRequest.config.columnConfigs.modify 1 ColumnConfig.keyed).map
      ColumnConfig.keyed = tagsRequest.config.columnConfigs.map ColumnConfig.keyed := by
    decide +kernel
  have same : keyColumns .underscore (tagsRequest.withColumns
      (tagsRequest.config.columnConfigs.modify 1 ColumnConfig.keyed)) =
        keyColumns .underscore tagsRequest := by
    decide +kernel
  have distinct : ((projectedConfig tagsRequest).columnConfigs.map (·.safeName)).Nodup := by
    decide +kernel
  obtain ⟨sql, t, accepted⟩ := Calling.exists_run_ok (show ((compile (Compiler.sql .underscore)
    .underscore tagsRequest).run ()).1.isOk = true by decide +kernel)
  obtain ⟨hsame, honly⟩ := compile_respelled respelled .underscore
  exact ⟨respelled, same, distinct, sql, accepted, (hsame same _ ()).2.trans accepted,
    honly distinct accepted⟩

/-- Orders with an owner that has an alias. -/
def ownerRequest : Request where
  query := { dimensions := ["orders.id", "orders.owner_id"] }
  tableSchemas :=
    [{ name := "orders"
       sql := "SELECT * FROM orders"
       dimensions :=
         [{ name := "id", sql := "orders.id", type := .number },
          { name := "owner_id", sql := "orders.owner_id", type := .string,
            «alias» := some "Owner" }] }]
  config :=
    { columnConfigs := [.ofType "orders.owner_id" .string "customers" "id" ["name"]]
      tableSchemas :=
        [{ name := "customers"
           sql := "SELECT * FROM customers"
           dimensions := [{ name := "name", sql := "customers.name", type := .string }] }] }

/-- Under its safe name the column of an aliased member is joined over a column that the base table
does not have. -/
theorem aliased_column_not_joined_by_safe_name :
    (∃ sql, (compile (Compiler.sql .underscore) .underscore ownerRequest).run () =
        (.ok sql, ())) ∧
      (compile (Compiler.sql .underscore) .underscore (ownerRequest.withColumns
          (ownerRequest.config.columnConfigs.map ColumnConfig.keyed))).run () =
        (.error (.missingJoinEdge "__base_query" "orders__owner_id" "Owner"), ()) := by
  obtain ⟨sql, t, accepted⟩ := Calling.exists_run_ok (show ((compile (Compiler.sql .underscore)
    .underscore ownerRequest).run ()).1.isOk = true by decide +kernel)
  exact ⟨⟨sql, accepted⟩, rfl⟩

end Resolution
end SemanticLayer
