import SemanticLayer.Proofs.Text
import SemanticLayer.Proofs.Dictionary
import SemanticLayer.Proofs.Statement
import SemanticLayer.Proofs.JoinChains

/-!
# SemanticLayer.Proofs.JoinedTables

The tables of a joined statement.

Schemas are joined in two places: `combineSchemas` puts the joins after the SQL of the origin, and a
select statement puts them after the origin as a named subquery. `combined_joins_eq_selected_joins`
says that both succeed on the same queries and write the same joins, and `joined_aliases_nodup` that
no two tables of either statement go by one name.
-/

namespace SemanticLayer

/-! ## Names of tables -/

namespace Text

theorem mem_expand_of_ne {c x : Char} {w xs : List Char} (h : x ∈ xs) (hne : x ≠ c) :
    x ∈ expand c w xs := by
  induction xs with
  | nil => cases h
  | cons y rest ih =>
    rw [expand]
    rcases List.mem_cons.1 h with rfl | h
    · simp [hne]
    · split <;> simp [ih h]

theorem mem_quoteWith_of_ne {q x : Char} {cs : List Char} (h : x ∈ cs) (hne : x ≠ q) :
    x ∈ quoteWith q cs := by
  simp [quoteWith, mem_expand_of_ne h hne]

end Text

theorem unquoteIdentifier_quoteIdentifier (s : String) :
    unquoteIdentifier (quoteIdentifier s) = s := by
  simp [unquoteIdentifier, quoteIdentifier, Text.unquote_quoteWith]

theorem dot_mem_quoteIdentifier {s : String} (h : '.' ∈ s.toList) :
    '.' ∈ (quoteIdentifier s).toList := by
  simp [quoteIdentifier, Text.mem_quoteWith_of_ne h (by decide : '.' ≠ '"')]

/-- A name with a dot keeps it in quotes, so it is never taken for one without. -/
theorem tableAlias_injective {a b : String} (h : tableAlias a = tableAlias b) : a = b := by
  simp only [tableAlias, List.contains_iff_mem] at h
  by_cases ha : '.' ∈ a.toList
  · have hmem := dot_mem_quoteIdentifier ha
    by_cases hb : '.' ∈ b.toList
    · rw [if_pos ha, if_pos hb] at h
      rw [← unquoteIdentifier_quoteIdentifier a, h, unquoteIdentifier_quoteIdentifier]
    · rw [if_pos ha, if_neg hb] at h
      exact absurd (h ▸ hmem) hb
  · by_cases hb : '.' ∈ b.toList
    · rw [if_neg ha, if_pos hb] at h
      exact absurd (h ▸ dot_mem_quoteIdentifier hb) ha
    · rwa [if_neg ha, if_neg hb] at h

/-- The names that a joined statement introduces: that of the origin, then that of each joined
table. -/
def JoinChain.aliases (chain : JoinChain) : List String :=
  tableAlias chain.origin :: chain.clauses.map fun clause => tableAlias clause.hop.right

/-- The names are those that the text of a chain gives to its tables: the first one to the origin,
where it stands after `FROM`, and the others to the joined tables. -/
def JoinChain.Introduces (chain : JoinChain) (names : List String) : Prop :=
  ∃ first rest joins, names = first :: rest ∧ rest.length = chain.clauses.length ∧
    joins = String.join (List.zipWith (fun clause name =>
      " LEFT JOIN (" ++ clause.sql ++ ") AS " ++ name ++ "  ON " ++ clause.condition)
        chain.clauses rest) ∧
    chain.render = chain.originSql ++ joins ∧
    chain.renderFrom = "(" ++ chain.originSql ++ ") AS " ++ first ++ joins

theorem JoinChain.introduces_aliases (chain : JoinChain) : chain.Introduces chain.aliases := by
  refine ⟨_, _, chain.renderClauses, rfl, List.length_map _, ?_, rfl, rfl⟩
  rw [List.zipWith_map_right, List.zipWith_self]
  rfl

/-- The joined tables are those of the first hops. -/
theorem JoinChain.Follows.aliases_eq {chain : JoinChain} {paths : List JoinPath}
    {tables : Dictionary} {graph : JoinGraph} (h : chain.Follows paths tables graph) :
    chain.aliases =
      (chain.origin :: (firstHops [] (joinedHops paths)).map (·.right)).map tableAlias := by
  rw [aliases, ← hops_of_mapM h.clauses_eq, List.map_cons, List.map_map, List.map_map]
  rfl

theorem JoinChain.Follows.nodup_aliases {chain : JoinChain} {paths : List JoinPath}
    {tables : Dictionary} {graph : JoinGraph} (h : chain.Follows paths tables graph)
    (hvalid : JoinPath.validate paths = .ok ()) : chain.aliases.Nodup := by
  have horigin : chain.origin ∉ (firstHops [] (joinedHops paths)).map (·.right) := by
    intro hmem
    obtain ⟨hop, hhop, hright⟩ := List.mem_map.1 hmem
    exact right_ne_common_origin hvalid h.origin_eq (mem_of_mem_firstHops hhop).1 hright
  have hnodup := List.nodup_cons.2 ⟨horigin, nodup_firstHops _ _⟩
  rw [h.aliases_eq]
  exact List.Pairwise.map tableAlias (fun _ _ hne h => hne (tableAlias_injective h)) hnodup

theorem nodup_aliases_of_joinedChain {schemas : List TableSchema} {q : Query} {chain : JoinChain}
    (h : joinedChain schemas q = .ok chain) : chain.aliases.Nodup := by
  obtain ⟨graph, _, hvalid, hchain⟩ := joinedChain_eq_ok_iff.1 h
  exact hchain.nodup_aliases hvalid

/-! ## The combined schema -/

theorem combineSchemas_eq_ok_iff {schemas : List TableSchema} {q : Query} {combined : TableSchema}
    (h : schemas.length ≠ 1) :
    combineSchemas schemas q = .ok combined ↔
      ∃ chain, joinedChain (usedSchemas schemas q) q = .ok chain ∧
        combined = {
          name := combinedName
          sql := chain.render
          measures := (usedSchemas schemas q).flatMap (·.measures)
          dimensions := (usedSchemas schemas q).flatMap (·.dimensions) } := by
  rw [combineSchemas.eq_2 schemas q (ne_singleton_of_length h), bind_eq_ok]
  simp [eq_comm]

/-- No two tables of a combined schema, nor of the tables that a query reads from, are introduced
under one name. -/
theorem joined_aliases_nodup (schemas : List TableSchema) (q : Query) :
    (∀ combined, schemas.length ≠ 1 → combineSchemas schemas q = .ok combined →
      ∃ chain, joinedChain (usedSchemas schemas q) q = .ok chain ∧ combined.sql = chain.render ∧
        chain.Introduces chain.aliases ∧ chain.aliases.Nodup) ∧
    ∀ used chain, used.length ≠ 1 → Select.sourceOf q used = .ok chain →
      chain.Introduces chain.aliases ∧ chain.aliases.Nodup := by
  constructor
  · intro combined hlength h
    obtain ⟨chain, hchain, rfl⟩ := (combineSchemas_eq_ok_iff hlength).1 h
    exact ⟨chain, hchain, rfl, chain.introduces_aliases, nodup_aliases_of_joinedChain hchain⟩
  · intro used chain hlength h
    exact ⟨chain.introduces_aliases,
      nodup_aliases_of_joinedChain ((sourceOf_eq_ok_iff hlength).1 h)⟩

/-- A table whose name has a dot is joined with two others, and one path goes on where another
ends. -/
def routeSchemas : List TableSchema :=
  [{ name := "shop.orders"
     sql := "SELECT * FROM shop.orders"
     joins := [⟨"\"shop.orders\".customer_id = customers.id"⟩] },
   { name := "customers"
     sql := "SELECT * FROM customers"
     joins := [⟨"customers.region_id = regions.id"⟩] },
   { name := "regions"
     sql := "SELECT * FROM regions" }]

def routeQuery : Query where
  joinPaths :=
    [[.join ⟨"shop.orders", "customers", "customer_id"⟩],
     [.join ⟨"shop.orders", "customers", "customer_id"⟩,
      .join ⟨"customers", "regions", "region_id"⟩]]

theorem route_joined_aliases_nodup :
    ∃ chain, Select.sourceOf routeQuery routeSchemas = .ok chain ∧
      chain.aliases = ["\"shop.orders\"", "customers", "regions"] ∧
      chain.renderFrom = "(SELECT * FROM shop.orders) AS \"shop.orders\""
        ++ " LEFT JOIN (SELECT * FROM customers) AS customers"
        ++ "  ON \"shop.orders\".customer_id = customers.id"
        ++ " LEFT JOIN (SELECT * FROM regions) AS regions"
        ++ "  ON customers.region_id = regions.id" ∧
      chain.Introduces chain.aliases ∧ chain.aliases.Nodup := by
  obtain ⟨chain, hchain⟩ := exists_of_isOk (x := Select.sourceOf routeQuery routeSchemas)
    (by decide +kernel)
  have hnames : (Select.sourceOf routeQuery routeSchemas).toOption.map
      (fun chain => (chain.aliases, chain.renderFrom)) =
        some (["\"shop.orders\"", "customers", "regions"],
          "(SELECT * FROM shop.orders) AS \"shop.orders\""
            ++ " LEFT JOIN (SELECT * FROM customers) AS customers"
            ++ "  ON \"shop.orders\".customer_id = customers.id"
            ++ " LEFT JOIN (SELECT * FROM regions) AS regions"
            ++ "  ON customers.region_id = regions.id") := by decide +kernel
  rw [hchain] at hnames
  obtain ⟨haliases, htext⟩ := Prod.mk.inj (Option.some.inj hnames)
  exact ⟨chain, hchain, haliases, htext,
    (joined_aliases_nodup routeSchemas routeQuery).2 routeSchemas chain (by decide) hchain⟩

/-! ## The origin as a named subquery -/

namespace JoinChain

variable {tables tables' : Dictionary} {graph : JoinGraph}

theorem clauseOf_congr {hop : Hop} (h : tables'.get? hop.right = tables.get? hop.right) :
    clauseOf tables' graph hop = clauseOf tables graph hop := by
  rw [clauseOf, clauseOf, sqlOf, sqlOf, h]

theorem clausesOf_congr {reached hops : List Hop}
    (h : ∀ hop ∈ hops, tables'.get? hop.right = tables.get? hop.right) :
    clausesOf tables' graph reached hops = clausesOf tables graph reached hops := by
  induction hops generalizing reached with
  | nil => rfl
  | cons hop rest ih =>
    have hrest : ∀ reached,
        clausesOf tables' graph reached rest = clausesOf tables graph reached rest :=
      fun _ => ih fun next hnext => h next (List.mem_cons_of_mem _ hnext)
    rw [clausesOf, clausesOf, clauseOf_congr (h hop List.mem_cons_self), hrest, hrest]

/-- An entry of the origin of valid paths is read only at the start of their chain. -/
theorem ofPaths_insert_origin {paths : List JoinPath} {origin text : String}
    (hvalid : JoinPath.validate paths = .ok ())
    (horigin : paths.head?.bind JoinPath.origin = some origin)
    (hknown : tables.contains origin = true) :
    ofPaths paths (tables.insert origin text) graph =
      (ofPaths paths tables graph).map fun chain => { chain with originSql := text } := by
  obtain ⟨path, hpath, horigin⟩ := Option.bind_eq_some_iff.1 horigin
  obtain ⟨first, hfirst, rfl⟩ := Option.map_eq_some_iff.1 horigin
  have hhead : paths.head?.bind List.head? = some first := by rw [hpath, Option.bind_some, hfirst]
  obtain ⟨sql, hsql⟩ := Option.isSome_iff_exists.1 hknown
  have hplain := sqlOf_eq_ok_iff.2 hsql
  have hnamed : sqlOf (tables.insert first.left text) first.left = .ok text :=
    sqlOf_eq_ok_iff.2 (by rw [Dictionary.get?_insert, if_pos rfl])
  by_cases hmismatch : paths.any (·.origin ≠ some first.left) = true
  · simp only [ofPaths, hhead, if_pos hmismatch]
    rfl
  · have horigins : ∀ path ∈ paths, path.origin = some first.left := by simpa using hmismatch
    have hagree : ∀ hop ∈ joinedHops paths,
        (tables.insert first.left text).get? hop.right = tables.get? hop.right := by
      intro hop hhop
      rw [Dictionary.get?_insert, if_neg (right_ne_common_origin hvalid horigins hhop)]
    cases first with
    | single table =>
      simp only [ofPaths, hhead, if_neg hmismatch, hnamed, hplain]
      rfl
    | join hop =>
      simp only [joinedHops, hhead] at hagree
      simp only [ofPaths, hhead, if_neg hmismatch, hnamed, hplain, clausesOf_congr hagree]
      cases clausesOf tables graph [] (paths.flatMap JoinPath.hops) <;> rfl

end JoinChain

/-- The tables that a query reads from, as text: the paths are followed over a dictionary in which
the SQL of the origin is a named subquery already. -/
def Select.namedSourceOf (q : Query) (used : List TableSchema) : Except CompileError String := do
  let tables := tableSql used
  let graph ← JoinGraph.build used tables
  JoinPath.validate q.joinPaths
  match q.joinPaths.head?.bind JoinPath.origin with
  | none => .error .emptyJoinPath
  | some origin =>
    let sql ← JoinChain.sqlOf tables origin
    let named := tables.insert origin ("(" ++ sql ++ ") AS " ++ tableAlias origin)
    let chain ← JoinChain.ofPaths q.joinPaths named graph
    return chain.render

/-- Naming the origin before the paths are followed, or after, makes no difference. -/
theorem Select.namedSourceOf_eq {q : Query} {used : List TableSchema} (h : used.length ≠ 1) :
    Select.namedSourceOf q used = (Select.sourceOf q used).map JoinChain.renderFrom := by
  rw [namedSourceOf, sourceOf.eq_2 q used (ne_singleton_of_length h)]
  cases JoinGraph.build used (tableSql used) with
  | error e => rfl
  | ok graph =>
    cases hvalid : JoinPath.validate q.joinPaths with
    | error e => rfl
    | ok u =>
      cases horigin : q.joinPaths.head?.bind JoinPath.origin with
      | none => rfl
      | some origin =>
        cases hsql : JoinChain.sqlOf (tableSql used) origin with
        | error e => simp [bind, Except.bind, hsql, Except.map]
        | ok sql =>
          have hget := JoinChain.sqlOf_eq_ok_iff.1 hsql
          have hknown : (tableSql used).contains origin = true := by
            rw [Dictionary.contains, hget, Option.isSome_some]
          simp only [bind, Except.bind, hsql, JoinChain.ofPaths_insert_origin hvalid horigin hknown]
          cases hchain : JoinChain.ofPaths q.joinPaths (tableSql used) graph with
          | error e => rfl
          | ok chain =>
            have hfollows := JoinChain.ofPaths_eq_ok_iff.1 hchain
            have hsame := hfollows.originSql_eq
            rw [hfollows.head_origin, Option.some.injEq] at horigin
            rw [horigin, hget, Option.some.injEq] at hsame
            subst horigin hsame
            rfl

/-- Both ways of joining the used schemas succeed on the same queries, and then they put the same
joins after the SQL of the table where all paths start, or after that table as a named subquery. -/
theorem combined_joins_eq_selected_joins {schemas : List TableSchema} {q : Query}
    (hschemas : schemas.length ≠ 1) (hused : (usedSchemas schemas q).length ≠ 1) :
    Select.namedSourceOf q (usedSchemas schemas q) =
      (Select.sourceOf q (usedSchemas schemas q)).map JoinChain.renderFrom ∧
    ((∃ combined, combineSchemas schemas q = .ok combined) ↔
      ∃ chain, Select.sourceOf q (usedSchemas schemas q) = .ok chain) ∧
    ∀ combined chain, combineSchemas schemas q = .ok combined →
      Select.sourceOf q (usedSchemas schemas q) = .ok chain →
      ∃ (origin sql : String) (clauses : List JoinClause),
        q.joinPaths ≠ [] ∧ (∀ path ∈ q.joinPaths, path.origin = some origin) ∧
        (tableSql (usedSchemas schemas q)).get? origin = some sql ∧
        combined.sql = sql ++ String.join (clauses.map JoinClause.render) ∧
        chain.renderFrom = "(" ++ sql ++ ") AS " ++ tableAlias origin
          ++ String.join (clauses.map JoinClause.render) := by
  refine ⟨Select.namedSourceOf_eq hused, ⟨?_, ?_⟩, ?_⟩
  · rintro ⟨combined, h⟩
    obtain ⟨chain, hchain, _⟩ := (combineSchemas_eq_ok_iff hschemas).1 h
    exact ⟨chain, (sourceOf_eq_ok_iff hused).2 hchain⟩
  · rintro ⟨chain, h⟩
    exact ⟨_, (combineSchemas_eq_ok_iff hschemas).2 ⟨chain, (sourceOf_eq_ok_iff hused).1 h, rfl⟩⟩
  · intro combined chain hcombined hsource
    have hjoined := (sourceOf_eq_ok_iff hused).1 hsource
    obtain ⟨chain', hchain', rfl⟩ := (combineSchemas_eq_ok_iff hschemas).1 hcombined
    obtain rfl : chain = chain' := Except.ok.inj (hjoined.symm.trans hchain')
    obtain ⟨graph, _, _, hfollows⟩ := joinedChain_eq_ok_iff.1 hjoined
    exact ⟨chain.origin, chain.originSql, chain.clauses, hfollows.paths_ne_nil,
      hfollows.origin_eq, hfollows.originSql_eq, rfl, rfl⟩

theorem shop_combined_joins_eq_selected_joins :
    shopSchemas.length ≠ 1 ∧ (usedSchemas shopSchemas shopQuery).length ≠ 1 ∧
      ∃ combined chain, combineSchemas shopSchemas shopQuery = .ok combined ∧
        Select.sourceOf shopQuery (usedSchemas shopSchemas shopQuery) = .ok chain ∧
        ∃ (origin sql : String) (clauses : List JoinClause),
          (∀ path ∈ shopQuery.joinPaths, path.origin = some origin) ∧
          (tableSql (usedSchemas shopSchemas shopQuery)).get? origin = some sql ∧
          combined.sql = sql ++ String.join (clauses.map JoinClause.render) ∧
          chain.renderFrom = "(" ++ sql ++ ") AS " ++ tableAlias origin
            ++ String.join (clauses.map JoinClause.render) := by
  have hschemas : shopSchemas.length ≠ 1 := by decide
  have hused : (usedSchemas shopSchemas shopQuery).length ≠ 1 := by decide +kernel
  obtain ⟨_, hiff, hjoins⟩ := combined_joins_eq_selected_joins hschemas hused
  obtain ⟨chain, hchain⟩ := exists_of_isOk
    (x := Select.sourceOf shopQuery (usedSchemas shopSchemas shopQuery)) (by decide +kernel)
  obtain ⟨combined, hcombined⟩ := hiff.2 ⟨chain, hchain⟩
  obtain ⟨origin, sql, clauses, _, h⟩ := hjoins combined chain hcombined hchain
  exact ⟨hschemas, hused, combined, chain, hcombined, hchain, origin, sql, clauses, h⟩

end SemanticLayer
