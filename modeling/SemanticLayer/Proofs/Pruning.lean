import SemanticLayer.Proofs.Names
import SemanticLayer.Proofs.Headings
import SemanticLayer.Proofs.Dictionary
import SemanticLayer.Proofs.GraphBuild
import SemanticLayer.Proofs.JoinChains
import SemanticLayer.Proofs.Acceptance
import SemanticLayer.Proofs.Filters

/-!
# SemanticLayer.Proofs.Pruning

A query with filters is compiled over the schemas of the tables it mentions.

`compileQuery_mentioned` says that the other schemas make no difference: without them the query is
compiled to the same SQL, or rejected with the same error. Over some of the schemas the tables have
the same SQL (`get?_tableSql_schemasOf`) and the same joins with each other (`build_schemasOf`), so
the join paths give the same chain, provided that they keep to these tables
(`joinedChain_schemasOf`). `accepts_withFilter_iff` says which unfiltered queries are still accepted
with a filter on tables that they select from.
-/

namespace SemanticLayer

/-! ## Schemas that are not mentioned -/

namespace Query

/-- The query selects the member, or filters by it at some depth. -/
def Asks (q : Query) (m : String) : Prop := m ∈ q.members ∨ ∃ f ∈ q.filters, f.Mentions m

/-- The query asks for a member of the table. -/
def Mentions (q : Query) (table : String) : Prop := ∃ m, q.Asks m ∧ Member.table m = table

theorem mem_membersList {q : Query} {m : String} :
    m ∈ Filter.membersList q.filters ↔ ∃ f ∈ q.filters, f.Mentions m := by
  simp only [Filter.membersList_eq_flatMap, List.mem_flatMap, Filter.mem_members]

theorem table_mem_of_asks {q : Query} {m : String} (h : q.Asks m) : Member.table m ∈ q.tables := by
  rcases h with hselected | hfiltered
  · exact table_mem_of_selected hselected
  · exact table_mem_of_filtered (mem_membersList.2 hfiltered)

theorem mem_tables_iff_mentions {q : Query} {table : String} :
    table ∈ q.tables ↔ q.Mentions table := by
  constructor
  · intro h
    obtain ⟨m, hm, rfl⟩ := List.mem_map.1 h
    rcases List.mem_append.1 hm with hm | hm
    · exact ⟨m, .inr (mem_membersList.1 hm), rfl⟩
    · exact ⟨m, .inl hm, rfl⟩
  · rintro ⟨m, hm, rfl⟩
    exact table_mem_of_asks hm

instance (q : Query) (table : String) : Decidable (q.Mentions table) :=
  decidable_of_iff _ mem_tables_iff_mentions

/-- The schemas of the tables that a query mentions. -/
def mentioned (q : Query) (schemas : List TableSchema) : List TableSchema :=
  schemas.filter fun s => q.Mentions s.name

theorem mentioned_eq_schemasOf (q : Query) (schemas : List TableSchema) :
    q.mentioned schemas = schemasOf q.tables schemas := by
  simp only [mentioned, schemasOf, mem_tables_iff_mentions]

/-- A single schema is used as it is, but then it is the one that is mentioned. -/
theorem schemasFor_eq_mentioned {q : Query} {schemas : List TableSchema} (hfilters : q.filters ≠ [])
    (hmentioned : ∃ s ∈ schemas, q.Mentions s.name) :
    Select.schemasFor q schemas = q.mentioned schemas := by
  unfold Select.schemasFor
  split
  · rename_i only
    obtain ⟨s, hs, hmentions⟩ := hmentioned
    rw [List.mem_singleton.1 hs] at hmentions
    simp [mentioned, hmentions]
  · rw [usedSchemas, if_neg (by simpa using hfilters), mentioned_eq_schemasOf, schemasOf]

theorem mentioned_mentioned (q : Query) (schemas : List TableSchema) :
    q.mentioned (q.mentioned schemas) = q.mentioned schemas := by
  simp [mentioned]

end Query

/-- A query with filters that mentions one of the schemas at least is compiled to the same SQL, or
fails with the same error, when the schemas that it does not mention are left out. The members that
it asks for stand for the same fields, if for any. -/
theorem compileQuery_mentioned {style : KeyStyle} {q : Query} {schemas : List TableSchema}
    (hfilters : q.filters ≠ []) (hmentioned : ∃ s ∈ schemas, q.Mentions s.name) :
    compileQuery style q (q.mentioned schemas) = compileQuery style q schemas ∧
      ∀ m, q.Asks m → findField (q.mentioned schemas) m = findField schemas m := by
  obtain ⟨s, hs, hname⟩ := hmentioned
  have hkept : s ∈ q.mentioned schemas := List.mem_filter.2 ⟨hs, decide_eq_true hname⟩
  constructor
  · have hused : Select.schemasFor q (q.mentioned schemas) = Select.schemasFor q schemas := by
      rw [Query.schemasFor_eq_mentioned hfilters ⟨s, hkept, hname⟩,
        Query.schemasFor_eq_mentioned hfilters ⟨s, hs, hname⟩, Query.mentioned_mentioned]
    rw [compileQuery, compileQuery, Select.ofQuery, Select.ofQuery, hused,
      if_neg (by simpa using List.ne_nil_of_mem hkept),
      if_neg (by simpa using List.ne_nil_of_mem hs)]
  · intro m hm
    rw [Query.mentioned_eq_schemasOf, findField_schemasOf, if_pos (Query.table_mem_of_asks hm)]

theorem shop_compileQuery_mentioned :
    shopQuery.filters ≠ [] ∧ (∃ s ∈ shopSchemas, shopQuery.Mentions s.name) ∧
      (shopQuery.mentioned shopSchemas).map (·.name) = ["orders", "customers"] ∧
      compileQuery .underscore shopQuery (shopQuery.mentioned shopSchemas) =
        compileQuery .underscore shopQuery shopSchemas ∧
      ∀ m, shopQuery.Asks m →
        findField (shopQuery.mentioned shopSchemas) m = findField shopSchemas m := by
  have hfilters : shopQuery.filters ≠ [] := by decide +kernel
  have hmentioned : ∃ s ∈ shopSchemas, shopQuery.Mentions s.name := by decide +kernel
  exact ⟨hfilters, hmentioned, by decide +kernel, compileQuery_mentioned hfilters hmentioned⟩

variable {tables : List String} {schemas : List TableSchema}

/-! ## Tables and joins -/

theorem get?_tableSql_schemasOf (table : String) :
    (tableSql (schemasOf tables schemas)).get? table =
      if table ∈ tables then (tableSql schemas).get? table else none := by
  simp only [tableSql, schemasOf, Dictionary.get?_ofList, ← List.map_reverse, List.find?_map,
    ← List.filter_reverse, List.find?_filter]
  split
  · rename_i htable
    congr 3
    funext s
    by_cases hs : s.name = table <;> simp [hs, htable]
  · rename_i htable
    simp only [Option.map_eq_none_iff, List.find?_eq_none]
    intro s _ hboth
    simp only [Function.comp_apply, decide_eq_true_eq] at hboth
    exact htable (hboth.2 ▸ hboth.1)

theorem declarations_schemasOf :
    JoinGraph.declarations (schemasOf tables schemas) =
      (JoinGraph.declarations schemas).filter (·.1 ∈ tables) := by
  induction schemas with
  | nil => rfl
  | cons s rest ih =>
    simp only [JoinGraph.declarations, schemasOf, List.flatMap_cons, List.filter_append,
      List.filter_cons, List.filter_map] at ih ⊢
    by_cases hs : s.name ∈ tables
    · simp [hs, ih, Function.comp_def]
    · simp [hs, ih, Function.comp_def]

theorem declaredEdges_schemasOf {es : List JoinEdge}
    (h : JoinGraph.declaredEdges schemas = .ok es) :
    JoinGraph.declaredEdges (schemasOf tables schemas) = .ok (es.filter (·.source ∈ tables)) := by
  rw [JoinGraph.declaredEdges, declarations_schemasOf]
  apply filter_of_mapM_ok h
  intro d _ e he
  rw [(JoinGraph.edgeOf_ok he).1]

theorem keeps_schemasOf {e : JoinEdge} :
    JoinGraph.keeps (tableSql (schemasOf tables schemas)) e = true ↔
      JoinGraph.keeps (tableSql schemas) e = true ∧ e.source ∈ tables ∧ e.target ∈ tables := by
  simp only [JoinGraph.keeps, Dictionary.contains, get?_tableSql_schemasOf, Bool.and_eq_true]
  by_cases hsource : e.source ∈ tables <;> by_cases htarget : e.target ∈ tables <;>
    simp [hsource, htarget]

/-- The edge joins two of the given tables. -/
def JoinEdge.isAmong (tables : List String) (e : JoinEdge) : Bool :=
  decide (e.source ∈ tables ∧ e.target ∈ tables)

theorem filter_keeps_schemasOf (es : List JoinEdge) :
    (es.filter (·.source ∈ tables)).filter (JoinGraph.keeps (tableSql (schemasOf tables schemas))) =
      (es.filter (JoinGraph.keeps (tableSql schemas))).filter (·.isAmong tables) := by
  rw [List.filter_filter, List.filter_filter]
  apply List.filter_congr
  intro e _
  rw [Bool.eq_iff_iff]
  simp only [Bool.and_eq_true, keeps_schemasOf, JoinEdge.isAmong, decide_eq_true_eq]
  constructor
  · rintro ⟨⟨hkeeps, hamong⟩, _⟩
    exact ⟨hamong, hkeeps⟩
  · rintro ⟨hamong, hkeeps⟩
    exact ⟨⟨hkeeps, hamong⟩, hamong.1⟩

/-- The graph `small` knows the joins of `large` between the given tables, and no others. -/
def JoinGraph.Restricts (small large : JoinGraph) (tables : List String) : Prop :=
  ∀ source target column condition,
    small.condition source target column = some condition ↔
      large.condition source target column = some condition ∧ source ∈ tables ∧ target ∈ tables

theorem build_schemasOf {g : JoinGraph} (h : JoinGraph.build schemas (tableSql schemas) = .ok g)
    (tables : List String) :
    ∃ g', JoinGraph.build (schemasOf tables schemas) (tableSql (schemasOf tables schemas)) =
        .ok g' ∧ g'.Restricts g tables := by
  obtain ⟨es, hes, hg, hedges⟩ := JoinGraph.edges_of_build h
  have hkeys : ((g.edges.filter (·.isAmong tables)).map JoinEdge.key).Nodup :=
    List.Nodup.sublist (List.filter_sublist.map _) hg.nodup_keys
  rw [hedges, ← filter_keeps_schemasOf] at hkeys
  obtain ⟨g', hbuild⟩ := JoinGraph.exists_build_iff.2 ⟨_, declaredEdges_schemasOf hes, hkeys⟩
  obtain ⟨es', hes', hg', hedges'⟩ := JoinGraph.edges_of_build hbuild
  rw [declaredEdges_schemasOf hes] at hes'
  cases hes'
  refine ⟨g', hbuild, fun source target column condition => ?_⟩
  rw [hg'.condition_eq_some_iff, hg.condition_eq_some_iff, hedges', filter_keeps_schemasOf,
    ← hedges, List.mem_filter]
  simp [JoinEdge.isAmong]

/-! ## Chains -/

/-- The tables that the join paths of a query go through. -/
def Query.joinTables (q : Query) : List String :=
  (q.joinPaths.head?.bind JoinPath.origin).toList ++
    (JoinChain.joinedHops q.joinPaths).flatMap fun hop => [hop.left, hop.right]

theorem forall_joinTables_iff {q : Query} {origin : String}
    (h : q.joinPaths.head?.bind JoinPath.origin = some origin) :
    (∀ t ∈ q.joinTables, t ∈ tables) ↔
      origin ∈ tables ∧
        ∀ hop ∈ JoinChain.joinedHops q.joinPaths, hop.left ∈ tables ∧ hop.right ∈ tables := by
  simp only [Query.joinTables, h, Option.toList_some, List.singleton_append, List.forall_mem_cons,
    List.forall_mem_flatMap, List.not_mem_nil, false_imp_iff, implies_true, and_true]

section

variable {g g' : JoinGraph} (hg : g'.Restricts g tables)
include hg

theorem clauseOf_schemasOf {hop : Hop} {clause : JoinClause} :
    JoinChain.clauseOf (tableSql (schemasOf tables schemas)) g' hop = .ok clause ↔
      JoinChain.clauseOf (tableSql schemas) g hop = .ok clause ∧
        (hop.left ∈ tables ∧ hop.right ∈ tables) := by
  rw [JoinChain.clauseOf_eq_ok_iff, JoinChain.clauseOf_eq_ok_iff, hg, get?_tableSql_schemasOf]
  by_cases hright : hop.right ∈ tables
  · simp [hright, and_assoc]
  · simp [hright]

theorem clausesOf_schemasOf {hops : List Hop} {clauses : List JoinClause} (h : OneSource hops) :
    (firstHops [] hops).mapM (JoinChain.clauseOf (tableSql (schemasOf tables schemas)) g') =
        .ok clauses ↔
      (firstHops [] hops).mapM (JoinChain.clauseOf (tableSql schemas) g) = .ok clauses ∧
        ∀ hop ∈ hops, hop.left ∈ tables ∧ hop.right ∈ tables := by
  rw [mapM_eq_ok_iff_of_restrict fun hop _ clause => clauseOf_schemasOf hg]
  apply and_congr_right
  intro _
  constructor
  · -- A hop has the target of a first one, and so its source.
    intro hfirst hop hhop
    obtain ⟨first, hmem, hright⟩ := exists_firstHop hhop List.not_mem_nil
    have hleft := h first (mem_of_mem_firstHops hmem).1 hop hhop hright
    rw [← hleft, ← hright]
    exact hfirst first hmem
  · intro hall hop hhop
    exact hall hop (mem_of_mem_firstHops hhop).1

theorem follows_schemasOf {chain : JoinChain} {q : Query} :
    chain.Follows q.joinPaths (tableSql (schemasOf tables schemas)) g' ↔
      chain.Follows q.joinPaths (tableSql schemas) g ∧ ∀ t ∈ q.joinTables, t ∈ tables := by
  constructor
  · intro h
    have hsql := h.originSql_eq
    rw [get?_tableSql_schemasOf, Option.ite_none_right_eq_some] at hsql
    obtain ⟨hclauses, hhops⟩ := (clausesOf_schemasOf hg h.one_source).1 h.clauses_eq
    exact ⟨⟨h.paths_ne_nil, h.origin_eq, hsql.2, h.one_source, hclauses⟩,
      (forall_joinTables_iff h.head_origin).2 ⟨hsql.1, hhops⟩⟩
  · rintro ⟨h, htables⟩
    obtain ⟨horigin, hhops⟩ := (forall_joinTables_iff h.head_origin).1 htables
    refine ⟨h.paths_ne_nil, h.origin_eq, ?_, h.one_source,
      (clausesOf_schemasOf hg h.one_source).2 ⟨h.clauses_eq, hhops⟩⟩
    rw [get?_tableSql_schemasOf, if_pos horigin, h.originSql_eq]

end

/-- Over the schemas of some tables the paths of a query give the same chain, if they keep to these
tables, and none otherwise. -/
theorem joinedChain_schemasOf {g : JoinGraph}
    (h : JoinGraph.build schemas (tableSql schemas) = .ok g) {q : Query} {chain : JoinChain} :
    joinedChain (schemasOf tables schemas) q = .ok chain ↔
      joinedChain schemas q = .ok chain ∧ ∀ t ∈ q.joinTables, t ∈ tables := by
  obtain ⟨g', hbuild, hg⟩ := build_schemasOf h tables
  simp only [joinedChain_eq_ok_iff, h, hbuild, Except.ok.injEq, exists_eq_left',
    follows_schemasOf hg, and_assoc]

/-! ## Filters on selected tables -/

theorem isSome_findField_schemasOf {m : String} :
    (findField (schemasOf tables schemas) m).isSome = true ↔
      (findField schemas m).isSome = true ∧ Member.table m ∈ tables := by
  rw [findField_schemasOf]
  by_cases htable : Member.table m ∈ tables <;> simp [htable]

/-- The tables of the members that a query selects. -/
def Query.selectedTables (q : Query) : List String := q.members.map Member.table

variable {q : Query} {f : Filter}

/-- A filter on selected tables leaves the schemas of these tables. -/
theorem schemasFor_withFilter (hmany : 2 ≤ schemas.length) (hfilters : q.filters = [])
    (hf : ∀ m, f.Mentions m → Member.table m ∈ q.selectedTables) :
    Select.schemasFor (q.withFilter f) schemas = schemasOf q.selectedTables schemas := by
  have hone : schemas.length ≠ 1 := by omega
  rw [Select.schemasFor.eq_2 _ _ (ne_singleton_of_length hone), usedSchemas,
    if_neg (by simp [Query.withFilter])]
  apply List.filter_congr
  intro s _
  have htables : s.name ∈ (q.withFilter f).tables ↔ s.name ∈ q.selectedTables := by
    simp only [Query.tables, Query.withFilter, hfilters, List.nil_append, Filter.membersList,
      List.append_nil, List.map_append, List.mem_append]
    refine or_iff_right_of_imp fun hmem => ?_
    obtain ⟨m, hm, hname⟩ := List.mem_map.1 hmem
    exact hname ▸ hf m (Filter.mem_members.1 hm)
  simp only [htables]

/-- Schemas of different names are left with one if and only if one table is selected. -/
theorem length_schemasOf_selected (hnames : (schemas.map (·.name)).Nodup)
    (hq : Select.Acceptable q schemas) :
    (schemasOf q.selectedTables schemas).length = 1 ↔
      ∃ t, ∀ m ∈ q.members, Member.table m = t := by
  have hfound : ∀ m ∈ q.members, ∃ s ∈ schemas, s.name = Member.table m := by
    intro m hm
    obtain ⟨field, hfield⟩ := Option.isSome_iff_exists.1 (hq.members m hm)
    obtain ⟨s, hs, hname, _⟩ := findField_eq_some hfield
    exact ⟨s, hs, hname⟩
  constructor
  · intro hone
    obtain ⟨only, honly⟩ := List.length_eq_one_iff.1 hone
    refine ⟨only.name, fun m hm => ?_⟩
    obtain ⟨s, hs, hname⟩ := hfound m hm
    have hkept : s ∈ schemasOf q.selectedTables schemas :=
      List.mem_filter.2 ⟨hs, decide_eq_true (hname ▸ List.mem_map_of_mem hm)⟩
    rw [honly, List.mem_singleton] at hkept
    rw [← hname, hkept]
  · rintro ⟨t, ht⟩
    obtain ⟨m, hm⟩ := List.exists_mem_of_ne_nil _ hq.selects
    obtain ⟨s, hs, hname⟩ := hfound m hm
    have hselected : ∀ t', t' ∈ q.selectedTables ↔ t' = s.name := by
      intro t'
      rw [hname]
      constructor
      · intro hmem
        obtain ⟨m', hm', rfl⟩ := List.mem_map.1 hmem
        rw [ht m' hm', ht m hm]
      · rintro rfl
        exact List.mem_map_of_mem hm
    simp only [schemasOf, hselected, filter_eq_singleton hnames hs, List.length_singleton]

theorem exists_sourceOf_schemasOf_iff (hmany : 2 ≤ schemas.length)
    (hnames : (schemas.map (·.name)).Nodup) (hq : Select.Acceptable q schemas) :
    (∃ chain, Select.sourceOf q (schemasOf q.selectedTables schemas) = .ok chain) ↔
      (∃ t, ∀ m ∈ q.members, Member.table m = t) ∨ ∀ t ∈ q.joinTables, t ∈ q.selectedTables := by
  obtain ⟨chain, hchain⟩ := hq.source
  rw [sourceOf_eq_ok_iff (by omega)] at hchain
  obtain ⟨g, hbuild, -⟩ := joinedChain_eq_ok_iff.1 hchain
  rw [← length_schemasOf_selected hnames hq]
  by_cases hone : (schemasOf q.selectedTables schemas).length = 1
  · obtain ⟨s, hs⟩ := List.length_eq_one_iff.1 hone
    rw [hs]
    exact iff_of_true ⟨_, rfl⟩ (.inl rfl)
  · simp [sourceOf_eq_ok_iff hone, joinedChain_schemasOf hbuild, hchain, hone]

/-- A filter on selected tables keeps an unfiltered query acceptable if and only if all members in
its order are of selected tables, and so are all tables that its join paths go through, unless it
selects from one table alone and needs no join. -/
theorem accepts_withFilter_iff {style : KeyStyle} (hmany : 2 ≤ schemas.length)
    (hnames : (schemas.map (·.name)).Nodup) (hfilters : q.filters = [])
    (hok : ∃ sql, compileQuery style q schemas = .ok sql)
    (hf : ∀ m operator values, f.Asks m operator values →
      Filter.Answerable schemas m operator values ∧ Member.table m ∈ q.selectedTables) :
    (∃ sql, compileQuery style (q.withFilter f) schemas = .ok sql) ↔
      ((∃ t, ∀ m ∈ q.members, Member.table m = t) ∨ ∀ t ∈ q.joinTables, t ∈ q.selectedTables) ∧
        ∀ entry ∈ q.order, Member.table entry.member ∈ q.selectedTables := by
  have hne : schemas ≠ [] := by
    rintro rfl
    simp at hmany
  have hmentions : ∀ m, f.Mentions m → Member.table m ∈ q.selectedTables := by
    intro m hm
    obtain ⟨operator, values, hasks⟩ := Filter.mentions_iff_asks.1 hm
    exact (hf m operator values hasks).2
  have hq := (Select.exists_compileQuery_iff.1 hok).2
  rw [Select.schemasFor_of_no_filters hfilters] at hq
  rw [Select.exists_compileQuery_iff, schemasFor_withFilter hmany hfilters hmentions,
    ← exists_sourceOf_schemasOf_iff hmany hnames hq]
  constructor
  · rintro ⟨_, h⟩
    refine ⟨h.source, fun entry hentry => ?_⟩
    exact (isSome_findField_schemasOf.1 (h.order entry hentry)).2
  · rintro ⟨hsource, horder⟩
    refine ⟨hne, hsource, hq.selects, ?_, ?_, ?_⟩
    · intro m hm
      exact isSome_findField_schemasOf.2 ⟨hq.members m hm, List.mem_map_of_mem hm⟩
    · intro f' hf' m operator values hasks
      simp only [Query.withFilter, hfilters, List.nil_append, List.mem_singleton] at hf'
      subst hf'
      obtain ⟨⟨field, hfield, htakes⟩, htable⟩ := hf m operator values hasks
      exact ⟨field, by rw [findField_schemasOf, if_pos htable, hfield], htakes⟩
    · intro entry hentry
      exact isSome_findField_schemasOf.2 ⟨hq.order entry hentry, horder entry hentry⟩

/-! ## Customers and regions of orders -/

/-- The orders join the customers with the regions, and nothing of the orders is selected. -/
def regionQuery : Query where
  dimensions := ["customers.name", "regions.code"]
  joinPaths :=
    [[.join ⟨"orders", "customers", "customer_id"⟩], [.join ⟨"orders", "regions", "region_id"⟩]]
  order := [⟨"regions.code", .ascending⟩]

def regionFilter : Filter :=
  .any [.member "customers.name" .contains ["a"], .member "regions.code" .equals ["N", "S"]]

theorem asks_regionFilter {m : String} {operator : Operator} {values : List String}
    (h : regionFilter.Asks m operator values) :
    Filter.Answerable shopSchemas m operator values ∧
      Member.table m ∈ ["customers", "regions"] := by
  cases h with
  | any hmem h =>
    simp only [List.mem_cons, List.not_mem_nil, or_false] at hmem
    rcases hmem with rfl | rfl <;> cases h
    · exact ⟨⟨_, rfl, rfl⟩, by decide +kernel⟩
    · exact ⟨⟨_, rfl, rfl⟩, by decide +kernel⟩

theorem shop_accepts_withFilter :
    ∃ sql, compileQuery .underscore ((regionQuery.withDimensions ["orders.id"]).withFilter
      regionFilter) shopSchemas = .ok sql := by
  have hok := exists_of_isOk (x := compileQuery .underscore
    (regionQuery.withDimensions ["orders.id"]) shopSchemas) (by decide +kernel)
  refine (accepts_withFilter_iff (by decide) (by decide) rfl hok ?_).2 ⟨.inr ?_, ?_⟩
  · intro m operator values hasks
    obtain ⟨hanswerable, htable⟩ := asks_regionFilter hasks
    exact ⟨hanswerable, List.mem_append_left ["orders"] htable⟩
  · decide +kernel
  · decide +kernel

/-- A filter on selected tables leaves out a table that the join paths start from. -/
theorem filter_leaves_out_joined_table :
    2 ≤ shopSchemas.length ∧ (shopSchemas.map (·.name)).Nodup ∧ regionQuery.filters = [] ∧
      (∃ sql, compileQuery .underscore regionQuery shopSchemas = .ok sql) ∧
      (∀ m operator values, regionFilter.Asks m operator values →
        Filter.Answerable shopSchemas m operator values ∧
          Member.table m ∈ regionQuery.selectedTables) ∧
      compileQuery .underscore (regionQuery.withFilter regionFilter) shopSchemas =
        .error (.unknownTable "orders") := by
  refine ⟨by decide, by decide, rfl, ?_, ?_, ?_⟩
  · exact exists_of_isOk (by decide +kernel)
  · intro m operator values hasks
    exact asks_regionFilter hasks
  · rfl

end SemanticLayer
