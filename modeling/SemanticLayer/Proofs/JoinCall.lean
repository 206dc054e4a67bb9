import SemanticLayer.Proofs.Calls
import SemanticLayer.Proofs.LookupChain

/-!
# SemanticLayer.Proofs.JoinCall

The call that joins the lookup tables, for every compiler and in both pipelines.

The base schema declares its joins as texts, while the join paths are made from its dimensions.
`joinCall_matches_joinPaths` says that they fit: the graph of the call can be built, each hop finds
the declaration of its own column config, and the tables of the statement are the base table and
one join for each column config.
-/

namespace SemanticLayer
namespace Resolution

open Calling (calls)
open Compiler (Answered)

/-! ## Lookup schemas -/

theorem isLookups_of_ok {config : ResolutionConfig} {lookups : List TableSchema}
    (h : lookupSchemas config = .ok lookups) : IsLookups config lookups where
  names := names_of_lookupSchemas h
  joins := by
    intro lookup hlookup
    obtain ⟨c, _, hc⟩ := exists_of_mem_mapM_ok h hlookup
    obtain ⟨_, _, _, _, rfl⟩ := lookupSchema_ok hc
    rfl
  sources := by
    intro c hc
    obtain ⟨lookup, hlookup, hok⟩ := exists_of_mapM_ok h hc
    obtain ⟨source, _, hsource, _, rfl⟩ := lookupSchema_ok hok
    exact ⟨_, hlookup, rfl, by rw [hsource]; rfl⟩

theorem IsLookups.applyAliases {config : ResolutionConfig} {lookups : List TableSchema}
    (h : IsLookups config lookups) (aliases : Dictionary) :
    IsLookups config (lookups.map (applyAliases aliases)) where
  names := by
    rw [← h.names, List.map_map]
    rfl
  joins := by
    intro lookup hlookup
    obtain ⟨plain, hplain, rfl⟩ := List.mem_map.1 hlookup
    exact h.joins plain hplain
  sources := by
    intro c hc
    obtain ⟨plain, hplain, hname, hsource⟩ := h.sources c hc
    exact ⟨_, List.mem_map_of_mem hplain, hname, hsource⟩

theorem IsLookups.of_safeKeyed {config : ResolutionConfig} {lookups : List TableSchema}
    (h : IsLookups config.safeKeyed lookups) : IsLookups config lookups where
  names := by
    rw [h.names, config.columnConfigs_safeKeyed, List.map_map]
    exact List.map_congr_left fun c _ => c.safeName_keyed
  joins := h.joins
  sources := by
    intro c hc
    obtain ⟨lookup, hlookup, hname, hsource⟩ := h.sources c.keyed (List.mem_map_of_mem hc)
    exact ⟨lookup, hlookup, hname.trans c.safeName_keyed, hsource⟩

/-! ## Hops -/

/-- A schema with the headings of the base schema hops over the columns of the base query. -/
theorem lookupHop_eq {style : KeyStyle} {schemas : List TableSchema} {members : List String}
    {base : TableSchema} (hname : base.name = baseName)
    (hheadings : base.headings = members.map (baseHeading style schemas) ++ [.plain rowIdName])
    (hkeys : ∀ p ∈ members, ∀ q ∈ members, Member.safeKey p = Member.safeKey q → p = q)
    {c : ColumnConfig} (hc : c.name ∈ members) : lookupHop base c = baseHop style schemas c := by
  have hfind : (members.map (baseHeading style schemas)).find? (·.name = c.safeName) =
      some (baseHeading style schemas c.name) := by
    apply find?_eq_some_of_unique (List.mem_map_of_mem hc)
    · exact decide_eq_true rfl
    · intro x hx hsafe
      obtain ⟨m, hm, rfl⟩ := List.mem_map.1 hx
      rw [hkeys m hm c.name hc (of_decide_eq_true hsafe)]
  have hheading : base.headings.find? (·.name = c.safeName) =
      some (baseHeading style schemas c.name) := by
    rw [hheadings, List.find?_append, hfind]
    rfl
  rw [TableSchema.find?_headings, Option.map_eq_some_iff] at hheading
  obtain ⟨d, hd, hdim⟩ := hheading
  have halias : d.alias = some (baseColumn style schemas c.name) := congrArg Heading.alias hdim
  rw [lookupHop, hd, hname, Option.bind_some, halias]
  rfl

theorem lookupPaths_safeKeyed (base : TableSchema) (config : ResolutionConfig) :
    lookupPaths base config.safeKeyed.columnConfigs = lookupPaths base config.columnConfigs := by
  rw [lookupPaths, config.columnConfigs_safeKeyed, List.map_map]
  apply List.map_congr_left
  intro c _
  simp only [Function.comp_apply, lookupHop, ColumnConfig.safeName_keyed]

/-! ## The call -/

/-- The members that the base schema of a request lists. -/
def baseMembers (request : Request) : List String :=
  if (projectedConfig request).hasArrayColumns then request.projections else request.query.members

/-- The number of the call that joins the lookup tables, counted from zero. Array resolution has
unnested the base table before. -/
def joinCallNumber (request : Request) : Nat :=
  if (projectedConfig request).hasArrayColumns then 2 else 1

/-- A call over joined schemas, along the paths to all lookup tables. -/
def IsJoinCall (style : KeyStyle) (schemas : List TableSchema) (config : ResolutionConfig)
    (call : Call) : Prop :=
  ∃ base lookups, call.schemas = base :: lookups ∧ call.query.filters = [] ∧
    call.query.joinPaths = lookupPaths base config.columnConfigs ∧
    IsJoined style schemas config base lookups

theorem resolveArrays_isJoinCall {σ : Type} {compiler : Compiler σ} {style : KeyStyle}
    {request : Request} {config : ResolutionConfig} {baseSql : String} {s : σ} {a : Answered}
    (named : ∀ c ∈ config.columnConfigs, c.name ∈ request.projections)
    (keys : ∀ p ∈ request.projections, ∀ q ∈ request.projections,
      Member.safeKey p = Member.safeKey q → p = q)
    (made : (calls (resolveArrays compiler.recorded style request baseSql config) s)[1]? = some a) :
    IsJoinCall style request.tableSchemas config a.call := by
  obtain ⟨base, sql, lookups, hbase, hlookups, hcall⟩ := resolveArrays_call made
  have isBase := preparedBase_ok hbase
  -- Unnesting has left the name and the headings of the base schema as they were.
  have hname : (wrapperSchema sql base).name = baseName := isBase.name
  have hheadings := headings_wrapperSchema_of_no_measures isBase.measures sql
  refine ⟨wrapperSchema sql base, lookups, by rw [hcall]; rfl, by rw [hcall]; rfl, ?_,
    hname, isBase.joins, ?_, (isLookups_of_ok hlookups).of_safeKeyed⟩
  · rw [hcall, ← lookupPaths_safeKeyed]
    rfl
  · intro c hc
    exact lookupHop_eq hname (hheadings.trans isBase.headings) keys (named c hc)

theorem resolveScalars_isJoinCall {σ : Type} {compiler : Compiler σ} {style : KeyStyle}
    {request : Request} {config : ResolutionConfig} {baseSql : String} {s : σ} {a : Answered}
    (named : ∀ c ∈ config.columnConfigs, c.name ∈ request.query.members)
    (keys : ∀ p ∈ request.query.members, ∀ q ∈ request.query.members,
      Member.safeKey p = Member.safeKey q → p = q)
    (made : (calls (resolveScalars compiler.recorded style request baseSql config) s)[0]? =
      some a) :
    IsJoinCall style request.tableSchemas config a.call := by
  obtain ⟨base, aliases, lookups, hbase, hlookups, hcall⟩ := resolveScalars_call made
  have isBase := preparedBase_ok hbase
  refine ⟨base, _, by rw [hcall]; rfl, by rw [hcall]; rfl, by rw [hcall]; rfl, isBase.name,
    isBase.joins, ?_, (isLookups_of_ok hlookups).applyAliases aliases⟩
  intro c hc
  exact lookupHop_eq isBase.name isBase.headings keys (named c hc)

theorem compile_isJoinCall {σ : Type} {compiler : Compiler σ} {style : KeyStyle}
    {request : Request} {s : σ} {a : Answered}
    (named : ∀ c ∈ (projectedConfig request).columnConfigs, c.name ∈ baseMembers request)
    (keys : ∀ p ∈ baseMembers request, ∀ q ∈ baseMembers request,
      Member.safeKey p = Member.safeKey q → p = q)
    (made : (calls (compile compiler.recorded style request) s)[joinCallNumber request]? = some a) :
    (projectedConfig request).columnConfigs ≠ [] ∧
      IsJoinCall style request.tableSchemas (projectedConfig request) a.call := by
  have hnumber : ∃ k, joinCallNumber request = k + 1 := by
    rw [joinCallNumber]
    split
    · exact ⟨1, rfl⟩
    · exact ⟨0, rfl⟩
  obtain ⟨k, hk⟩ := hnumber
  rw [hk] at made
  obtain ⟨baseSql, s₁, -, hne, made⟩ := compile_call_succ made
  refine ⟨hne, ?_⟩
  by_cases harray : (projectedConfig request).hasArrayColumns = true
  · rw [baseMembers, if_pos harray] at named keys
    rw [joinCallNumber, if_pos harray] at hk
    cases hk
    rw [resolveProjected_arrays hne harray] at made
    exact resolveArrays_isJoinCall named keys made
  · rw [baseMembers, if_neg harray] at named keys
    rw [joinCallNumber, if_neg harray] at hk
    cases hk
    rw [resolveProjected_scalars hne harray] at made
    exact resolveScalars_isJoinCall named keys made

/-- Whenever resolution makes the call that joins the lookup tables, the joins that the base schema
declares match the paths of the query. -/
theorem joinCall_matches_joinPaths {σ : Type} {compiler : Compiler σ} {style : KeyStyle}
    {request : Request} {s : σ} {a : Answered}
    (named : ∀ c ∈ (projectedConfig request).columnConfigs, c.name ∈ baseMembers request)
    (keys : ∀ p ∈ baseMembers request, ∀ q ∈ baseMembers request,
      Member.safeKey p = Member.safeKey q → p = q)
    (joinable : AllJoinable style request.tableSchemas (projectedConfig request).columnConfigs)
    (made : (calls (compile compiler.recorded style request) s)[joinCallNumber request]? = some a) :
    ∃ base lookups graph chain clauses, a.call.schemas = base :: lookups ∧
      JoinGraph.build a.call.schemas (tableSql a.call.schemas) = .ok graph ∧
      a.call.query.joinPaths =
        (projectedConfig request).columnConfigs.map (fun c => [.join (lookupHop base c)]) ∧
      (∀ c ∈ (projectedConfig request).columnConfigs,
        graph.condition (lookupHop base c).left (lookupHop base c).right (lookupHop base c).on =
          some (baseJoin style request.tableSchemas c).sql) ∧
      Select.sourceOf a.call.query (Select.schemasFor a.call.query a.call.schemas) = .ok chain ∧
      (projectedConfig request).columnConfigs.map
        (lookupClause style request.tableSchemas (projectedConfig request)) = clauses.map some ∧
      chain.renderFrom = "(" ++ base.sql ++ ") AS " ++ baseName ++ String.join clauses := by
  obtain ⟨hne, base, lookups, hschemas, hfilters, hpaths, hjoined⟩ :=
    compile_isJoinCall named keys made
  obtain ⟨graph, hbuild, hedges⟩ := build_joined hjoined joinable
  obtain ⟨chain, clauses, hsource, hclauses, hrender⟩ :=
    sourceOf_joined hjoined joinable hne hpaths
  refine ⟨base, lookups, graph, chain, clauses, hschemas, ?_, hpaths, ?_, ?_, hclauses, hrender⟩
  · rw [hschemas]
    exact hbuild
  · intro c hc
    rw [hjoined.hops c hc]
    exact condition_baseEdges hedges hc
  · rw [Select.schemasFor_of_no_filters hfilters, hschemas]
    exact hsource

theorem orders_joinCall_matches_joinPaths :
    ∃ a, (calls (compile (Compiler.always "SELECT 1").recorded .dotted ordersRequest)
        ())[joinCallNumber ordersRequest]? = some a ∧
      ∃ base lookups graph chain clauses, a.call.schemas = base :: lookups ∧
        JoinGraph.build a.call.schemas (tableSql a.call.schemas) = .ok graph ∧
        a.call.query.joinPaths = (projectedConfig ordersRequest).columnConfigs.map
          (fun c => [.join (lookupHop base c)]) ∧
        (∀ c ∈ (projectedConfig ordersRequest).columnConfigs,
          graph.condition (lookupHop base c).left (lookupHop base c).right (lookupHop base c).on =
            some (baseJoin .dotted ordersRequest.tableSchemas c).sql) ∧
        Select.sourceOf a.call.query (Select.schemasFor a.call.query a.call.schemas) = .ok chain ∧
        (projectedConfig ordersRequest).columnConfigs.map (lookupClause .dotted
          ordersRequest.tableSchemas (projectedConfig ordersRequest)) = clauses.map some ∧
        chain.renderFrom = "(" ++ base.sql ++ ") AS " ++ baseName ++ String.join clauses := by
  obtain ⟨a, made⟩ := Option.isSome_iff_exists.1 (show ((calls (compile
    (Compiler.always "SELECT 1").recorded .dotted ordersRequest)
      ())[joinCallNumber ordersRequest]?).isSome = true by decide +kernel)
  exact ⟨a, made, joinCall_matches_joinPaths (by decide +kernel) (by decide +kernel)
    ⟨by decide +kernel, by decide +kernel⟩ made⟩

end Resolution
end SemanticLayer
