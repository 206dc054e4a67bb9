import SemanticLayer.Proofs.JoinChains
import SemanticLayer.Proofs.GraphRuns

/-!
# SemanticLayer.Proofs.ChainText

The text of the joins that paths describe.

`firstHops` goes through the hops one by one; `mem_firstHops_iff` says which of them it picks, and
`map_right_firstHops` in which order. From these, `joined_text_exact` says when paths can be joined
and what is then written, and `joined_text_perm` that the order of the paths decides nothing but the
order of the joins.
-/

namespace SemanticLayer

/-! ## First hops -/

/-- The first hops lead to the same tables as all hops, each once and in order of first mention. -/
theorem map_right_firstHops (seen : List String) (hops : List Hop) :
    (firstHops seen hops).map (·.right) = ((hops.map (·.right)).filter (· ∉ seen)).eraseDups := by
  induction hops generalizing seen with
  | nil => rfl
  | cons hop rest ih =>
    rw [firstHops, List.map_cons]
    by_cases hseen : hop.right ∈ seen
    · rw [if_pos hseen, ih, List.filter_cons_of_neg (by simpa using hseen)]
    · rw [if_neg hseen, List.map_cons, ih, List.filter_cons_of_pos (by simpa using hseen),
        List.eraseDups_cons, List.filter_filter]
      congr 3
      funext table
      simp [Bool.beq_eq_decide_eq]

/-- Hops between the same two tables are over one column. -/
def OneColumn (hops : List Hop) : Prop :=
  ∀ hop ∈ hops, ∀ other ∈ hops, hop.left = other.left → hop.right = other.right →
    hop.on = other.on

instance (hops : List Hop) : Decidable (OneColumn hops) :=
  inferInstanceAs (Decidable (∀ hop ∈ hops, ∀ other ∈ hops, hop.left = other.left →
    hop.right = other.right → hop.on = other.on))

theorem OneColumn.of_subset {hops more : List Hop} (h : OneColumn more) (hsub : hops ⊆ more) :
    OneColumn hops :=
  fun hop hhop other hother => h hop (hsub hhop) other (hsub hother)

/-- Where the table of a hop decides the rest of it, every hop is a first hop. -/
theorem mem_firstHops_iff_mem {hops : List Hop} (hone : OneSource hops) (hcolumn : OneColumn hops)
    {hop : Hop} : hop ∈ firstHops [] hops ↔ hop ∈ hops := by
  constructor
  · exact fun h => (mem_of_mem_firstHops h).1
  · intro h
    obtain ⟨first, hfirst, hright⟩ := exists_firstHop h List.not_mem_nil
    have hmem := (mem_of_mem_firstHops hfirst).1
    have hleft := hone first hmem hop h hright
    have hon := hcolumn first hmem hop h hleft hright
    have heq : first = hop := by
      cases first
      cases hop
      cases hleft
      cases hright
      cases hon
      rfl
    exact heq ▸ hfirst

theorem perm_firstHops {hops hops' : List Hop} (hperm : hops.Perm hops') (hone : OneSource hops)
    (hcolumn : OneColumn hops) : (firstHops [] hops).Perm (firstHops [] hops') := by
  have hnodup : ∀ hops, (firstHops [] hops).Nodup :=
    fun hops => (nodup_firstHops [] hops).of_map _
  rw [List.perm_ext_iff_of_nodup (hnodup _) (hnodup _)]
  intro hop
  rw [mem_firstHops_iff_mem hone hcolumn,
    mem_firstHops_iff_mem (hone.of_subset hperm.symm.subset) (hcolumn.of_subset hperm.symm.subset)]
  exact hperm.mem_iff

/-! ## The text -/

namespace JoinChain

variable {tables : Dictionary} {graph : JoinGraph}

/-- No table is reached from two others, and for the first hop to each table there are the SQL of
that table and a condition. -/
structure Followable (hops : List Hop) (tables : Dictionary) (graph : JoinGraph) : Prop where
  one_source : OneSource hops
  sql : ∀ table hop, hops.find? (·.right = table) = some hop → ∃ sql, tables.get? table = some sql
  condition : ∀ table hop, hops.find? (·.right = table) = some hop →
    ∃ condition, graph.condition hop.left table hop.on = some condition

/-- There is one clause for each table that the hops reach, in the order in which they first reach
them, and it is made from the hop that does so. -/
structure JoinsEach (hops : List Hop) (tables : Dictionary) (graph : JoinGraph)
    (clauses : List JoinClause) : Prop where
  tables_eq : clauses.map (·.hop.right) = (hops.map (·.right)).eraseDups
  first : ∀ clause ∈ clauses, hops.find? (·.right = clause.hop.right) = some clause.hop
  sql_eq : ∀ clause ∈ clauses, tables.get? clause.hop.right = some clause.sql
  condition_eq : ∀ clause ∈ clauses,
    graph.condition clause.hop.left clause.hop.right clause.hop.on = some clause.condition

theorem exists_clauses_iff {hops : List Hop} :
    (∃ clauses, OneSource hops ∧ (firstHops [] hops).mapM (clauseOf tables graph) = .ok clauses) ↔
      Followable hops tables graph := by
  rw [exists_and_left, exists_mapM_ok_iff]
  constructor
  · rintro ⟨hone, hclauses⟩
    have hfirst : ∀ table hop, hops.find? (·.right = table) = some hop →
        hop.right = table ∧ ∃ clause, clauseOf tables graph hop = .ok clause := by
      intro table hop hfind
      have hright : hop.right = table := by simpa using List.find?_some hfind
      exact ⟨hright, hclauses hop (mem_firstHops_iff.2 ⟨List.not_mem_nil, hright ▸ hfind⟩)⟩
    refine ⟨hone, fun table hop hfind => ?_, fun table hop hfind => ?_⟩
    · obtain ⟨rfl, clause, hclause⟩ := hfirst table hop hfind
      exact ⟨_, (clauseOf_eq_ok_iff.1 hclause).2.1⟩
    · obtain ⟨rfl, clause, hclause⟩ := hfirst table hop hfind
      exact ⟨_, (clauseOf_eq_ok_iff.1 hclause).2.2⟩
  · intro h
    refine ⟨h.one_source, fun hop hhop => ?_⟩
    have hfind := (mem_firstHops_iff.1 hhop).2
    obtain ⟨sql, hsql⟩ := h.sql _ _ hfind
    obtain ⟨condition, hcondition⟩ := h.condition _ _ hfind
    exact ⟨⟨hop, sql, condition⟩, clauseOf_eq_ok_iff.2 ⟨rfl, hsql, hcondition⟩⟩

theorem joinsEach_of_mapM {hops : List Hop} {clauses : List JoinClause}
    (h : (firstHops [] hops).mapM (clauseOf tables graph) = .ok clauses) :
    JoinsEach hops tables graph clauses := by
  have hhops := hops_of_mapM h
  have hmade : ∀ clause ∈ clauses, clauseOf tables graph clause.hop = .ok clause := by
    intro clause hclause
    obtain ⟨hop, -, hok⟩ := exists_of_mem_mapM_ok h hclause
    rw [(clauseOf_eq_ok_iff.1 hok).1]
    exact hok
  refine ⟨?_, fun clause hclause => ?_, fun clause hclause => ?_, fun clause hclause => ?_⟩
  · have hrights := map_right_firstHops [] hops
    simpa [← hhops, Function.comp_def] using hrights
  · have hmem : clause.hop ∈ firstHops [] hops := hhops ▸ List.mem_map_of_mem hclause
    exact (mem_firstHops_iff.1 hmem).2
  · exact (clauseOf_eq_ok_iff.1 (hmade clause hclause)).2.1
  · exact (clauseOf_eq_ok_iff.1 (hmade clause hclause)).2.2

theorem exists_ofPaths_iff {paths : List JoinPath} :
    (∃ chain, ofPaths paths tables graph = .ok chain) ↔
      ∃ first sql, paths.head?.bind List.head? = some first ∧
        (∀ path ∈ paths, path.origin = some first.left) ∧ tables.get? first.left = some sql ∧
        Followable (joinedHops paths) tables graph := by
  simp only [ofPaths_eq_ok_iff]
  constructor
  · rintro ⟨chain, h⟩
    obtain ⟨first, hfirst, hleft⟩ := h.exists_first
    exact ⟨first, chain.originSql, hfirst, hleft ▸ h.origin_eq, hleft ▸ h.originSql_eq,
      exists_clauses_iff.1 ⟨chain.clauses, h.one_source, h.clauses_eq⟩⟩
  · rintro ⟨first, sql, hfirst, horigin, hsql, hfollow⟩
    obtain ⟨clauses, hone, hclauses⟩ := exists_clauses_iff.2 hfollow
    have hne : paths ≠ [] := by
      rintro rfl
      cases hfirst
    exact ⟨⟨first.left, sql, clauses⟩, hne, horigin, hsql, hone, hclauses⟩

/-- Paths can be joined exactly if all of them start at one table that has SQL, and the first of
them starts with a single table or all hops can be followed. What is written is the SQL of the
origin, and, unless it is single, one join for each table that is reached. -/
theorem joined_text_exact (paths : List JoinPath) (tables : Dictionary) (graph : JoinGraph) :
    ((∃ text, (ofPaths paths tables graph).map render = .ok text) ↔
      ∃ first sql, paths.head?.bind List.head? = some first ∧
        (∀ path ∈ paths, path.origin = some first.left) ∧ tables.get? first.left = some sql ∧
        ((∃ table, first = .single table) ∨
          Followable (paths.flatMap JoinPath.hops) tables graph)) ∧
    ∀ text, (ofPaths paths tables graph).map render = .ok text →
      ∃ first sql, paths.head?.bind List.head? = some first ∧ tables.get? first.left = some sql ∧
        ((∃ table, first = .single table) ∧ text = sql ∨
          (∃ hop, first = .join hop) ∧
            ∃ clauses, JoinsEach (paths.flatMap JoinPath.hops) tables graph clauses ∧
              text = sql ++ String.join (clauses.map fun clause =>
                " LEFT JOIN (" ++ clause.sql ++ ") AS " ++ tableAlias clause.hop.right ++ "  ON "
                  ++ clause.condition)) := by
  constructor
  · have htext : (∃ text, (ofPaths paths tables graph).map render = .ok text) ↔
        ∃ chain, ofPaths paths tables graph = .ok chain := by simp [map_eq_ok]
    rw [htext, exists_ofPaths_iff]
    refine exists_congr fun first => exists_congr fun sql => and_congr_right fun hfirst =>
      and_congr_right fun _ => and_congr_right fun _ => ?_
    cases first with
    | single table =>
      rw [joinedHops_of_single hfirst]
      exact iff_of_true ⟨by simp [OneSource], nofun, nofun⟩ (.inl ⟨table, rfl⟩)
    | join hop => simp [joinedHops_of_join hfirst]
  · intro text htext
    obtain ⟨chain, hchain, rfl⟩ := map_eq_ok.1 htext
    have h := ofPaths_eq_ok_iff.1 hchain
    obtain ⟨first, hfirst, hleft⟩ := h.exists_first
    refine ⟨first, chain.originSql, hfirst, hleft ▸ h.originSql_eq, ?_⟩
    have hjoins := joinsEach_of_mapM h.clauses_eq
    cases first with
    | single table =>
      have hnone : chain.clauses = [] := by
        rw [joinedHops_of_single hfirst] at hjoins
        simpa using hjoins.tables_eq
      exact .inl ⟨⟨table, rfl⟩, by simp [render, renderClauses, hnone]⟩
    | join hop =>
      rw [joinedHops_of_join hfirst] at hjoins
      exact .inr ⟨⟨hop, rfl⟩, chain.clauses, hjoins, rfl⟩

/-- Customers are reached twice, over two columns, and a single table stands within a path. -/
def tourPaths : List JoinPath :=
  [[.join ⟨"orders", "customers", "customer_id"⟩, .join ⟨"customers", "geo.regions", "region_id"⟩],
   [.join ⟨"orders", "customers", "payer_id"⟩, .single "stores",
    .join ⟨"orders", "stores", "store_id"⟩]]

def tourTables : Dictionary :=
  .ofList [("orders", "SELECT * FROM orders"), ("customers", "SELECT * FROM customers"),
    ("geo.regions", "SELECT * FROM geo.regions"), ("stores", "SELECT * FROM stores")]

def tourGraph : JoinGraph :=
  .after [⟨"orders", "customers", "payer_id", "orders.payer_id = customers.id"⟩,
    ⟨"orders", "customers", "customer_id", "orders.customer_id = customers.id"⟩,
    ⟨"customers", "geo.regions", "region_id", "customers.region_id = \"geo.regions\".id"⟩,
    ⟨"orders", "stores", "store_id", "orders.store_id = stores.id"⟩]

def tourText : String :=
  "SELECT * FROM orders LEFT JOIN (SELECT * FROM customers) AS customers  ON " ++
    "orders.customer_id = customers.id LEFT JOIN (SELECT * FROM geo.regions) AS " ++
    "\"geo.regions\"  ON customers.region_id = \"geo.regions\".id LEFT JOIN (SELECT * FROM " ++
    "stores) AS stores  ON orders.store_id = stores.id"

theorem tour_joined_text_exact :
    (ofPaths tourPaths tourTables tourGraph).map render = .ok tourText ∧
      ∃ clauses, JoinsEach (tourPaths.flatMap JoinPath.hops) tourTables tourGraph clauses ∧
        tourText = "SELECT * FROM orders" ++ String.join (clauses.map fun clause =>
          " LEFT JOIN (" ++ clause.sql ++ ") AS " ++ tableAlias clause.hop.right ++ "  ON "
            ++ clause.condition) := by
  have htext : (ofPaths tourPaths tourTables tourGraph).map render = .ok tourText :=
    eq_ok_of_toOption (by decide +kernel)
  refine ⟨htext, ?_⟩
  obtain ⟨first, sql, hfirst, hsql, h⟩ :=
    (joined_text_exact tourPaths tourTables tourGraph).2 tourText htext
  cases hfirst
  have hget : tourTables.get? "orders" = some "SELECT * FROM orders" := by decide +kernel
  cases hsql.symm.trans hget
  rcases h with ⟨⟨table, hsingle⟩, -⟩ | ⟨-, hclauses⟩
  · cases hsingle
  · exact hclauses

/-! ## The order of the paths -/

theorem joinedHops_of_joins {paths : List JoinPath} {origin : String} (hne : paths ≠ [])
    (horigin : ∀ path ∈ paths, path.origin = some origin)
    (hjoins : ∀ path ∈ paths, ∀ node ∈ path, ∃ hop, node = .join hop) :
    joinedHops paths = paths.flatMap JoinPath.hops := by
  obtain ⟨path, rest, rfl⟩ := List.exists_cons_of_ne_nil hne
  obtain ⟨first, hfirst, -⟩ := Option.map_eq_some_iff.1 (horigin path List.mem_cons_self)
  obtain ⟨hop, rfl⟩ := hjoins path List.mem_cons_self first (List.mem_of_head? hfirst)
  exact joinedHops_of_join hfirst

/-- A chain that follows some paths follows them in any order, with its clauses in another order. -/
theorem Follows.exists_perm {chain : JoinChain} {paths paths' : List JoinPath}
    (h : chain.Follows paths tables graph) (hperm : paths.Perm paths')
    (hjoins : ∀ path ∈ paths, ∀ node ∈ path, ∃ hop, node = .join hop)
    (hcolumn : OneColumn (paths.flatMap JoinPath.hops)) :
    ∃ clauses, Follows { chain with clauses } paths' tables graph ∧
      chain.clauses.Perm clauses := by
  have hne : paths' ≠ [] := by
    rintro rfl
    exact h.paths_ne_nil hperm.eq_nil
  have horigin : ∀ path ∈ paths', path.origin = some chain.origin :=
    fun path hpath => h.origin_eq path (hperm.mem_iff.2 hpath)
  have hhops := joinedHops_of_joins h.paths_ne_nil h.origin_eq hjoins
  have hhops' := joinedHops_of_joins hne horigin
    fun path hpath => hjoins path (hperm.mem_iff.2 hpath)
  have hflat := hperm.flatMap_right JoinPath.hops
  have hone := h.one_source
  have hclauses := h.clauses_eq
  rw [hhops] at hone hclauses
  obtain ⟨clauses, hok, hsame⟩ :=
    exists_mapM_ok_of_perm (perm_firstHops hflat hone hcolumn) hclauses
  exact ⟨clauses, ⟨hne, horigin, h.originSql_eq, hhops' ▸ hone.of_subset hflat.symm.subset,
    hhops' ▸ hok⟩, hsame⟩

/-- Paths of joins that agree on their columns can be joined in any order or in none, and in any
order they are written as the SQL of one origin and the same joins. -/
theorem joined_text_perm {paths paths' : List JoinPath} (tables : Dictionary) (graph : JoinGraph)
    (hperm : paths.Perm paths')
    (hjoins : ∀ path ∈ paths, ∀ node ∈ path, ∃ hop, node = .join hop)
    (hcolumn : OneColumn (paths.flatMap JoinPath.hops)) :
    ((∃ chain, ofPaths paths tables graph = .ok chain) ↔
      ∃ chain, ofPaths paths' tables graph = .ok chain) ∧
    ∀ chain chain', ofPaths paths tables graph = .ok chain →
      ofPaths paths' tables graph = .ok chain' →
      ∃ sql, tables.get? chain.origin = some sql ∧ chain'.origin = chain.origin ∧
        chain.render = sql ++ String.join (chain.clauses.map JoinClause.render) ∧
        chain'.render = sql ++ String.join (chain'.clauses.map JoinClause.render) ∧
        chain.clauses.Perm chain'.clauses := by
  have hcolumn' : OneColumn (paths'.flatMap JoinPath.hops) :=
    hcolumn.of_subset (hperm.symm.flatMap_right JoinPath.hops).subset
  have hjoins' : ∀ path ∈ paths', ∀ node ∈ path, ∃ hop, node = .join hop :=
    fun path hpath => hjoins path (hperm.mem_iff.2 hpath)
  simp only [ofPaths_eq_ok_iff]
  refine ⟨⟨?_, ?_⟩, ?_⟩
  · rintro ⟨chain, h⟩
    obtain ⟨clauses, h', -⟩ := h.exists_perm hperm hjoins hcolumn
    exact ⟨_, h'⟩
  · rintro ⟨chain, h⟩
    obtain ⟨clauses, h', -⟩ := h.exists_perm hperm.symm hjoins' hcolumn'
    exact ⟨_, h'⟩
  · intro chain chain' h h'
    obtain ⟨clauses, hfollows, hsame⟩ := h.exists_perm hperm hjoins hcolumn
    -- The paths in their other order describe one chain only.
    obtain rfl : { chain with clauses } = chain' :=
      Except.ok.inj ((ofPaths_eq_ok_iff.2 hfollows).symm.trans (ofPaths_eq_ok_iff.2 h'))
    exact ⟨chain.originSql, h.originSql_eq, rfl, rfl, rfl, hsame⟩

/-- The first path is the start of the last one. -/
def forkPaths : List JoinPath :=
  [[.join ⟨"orders", "customers", "customer_id"⟩],
   [.join ⟨"orders", "stores", "store_id"⟩],
   [.join ⟨"orders", "customers", "customer_id"⟩,
    .join ⟨"customers", "geo.regions", "region_id"⟩]]

theorem fork_joined_text_perm :
    forkPaths.Perm forkPaths.reverse ∧ OneColumn (forkPaths.flatMap JoinPath.hops) ∧
      ∃ chain chain', ofPaths forkPaths tourTables tourGraph = .ok chain ∧
        ofPaths forkPaths.reverse tourTables tourGraph = .ok chain' ∧
        chain.render ≠ chain'.render ∧ chain.clauses.Perm chain'.clauses := by
  have hperm : forkPaths.Perm forkPaths.reverse := (List.reverse_perm _).symm
  have hjoins : ∀ path ∈ forkPaths, ∀ node ∈ path, ∃ hop, node = .join hop := by simp [forkPaths]
  have hcolumn : OneColumn (forkPaths.flatMap JoinPath.hops) := by decide +kernel
  obtain ⟨hiff, hsame⟩ := joined_text_perm tourTables tourGraph hperm hjoins hcolumn
  obtain ⟨chain, hchain⟩ := exists_of_isOk (x := ofPaths forkPaths tourTables tourGraph)
    (by decide +kernel)
  obtain ⟨chain', hchain'⟩ := hiff.1 ⟨chain, hchain⟩
  have hne : ((ofPaths forkPaths tourTables tourGraph).map render).toOption ≠
      ((ofPaths forkPaths.reverse tourTables tourGraph).map render).toOption := by decide +kernel
  rw [hchain, hchain'] at hne
  obtain ⟨sql, -, -, -, -, hclauses⟩ := hsame chain chain' hchain hchain'
  exact ⟨hperm, hcolumn, chain, chain', hchain, hchain', fun heq => hne (by simp [Except.map, heq]),
    hclauses⟩

end JoinChain
end SemanticLayer
