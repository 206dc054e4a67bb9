import SemanticLayer.Statement.Compile
import SemanticLayer.Proofs.Calling

/-!
# SemanticLayer.Proofs.JoinChains

The chain of joins that join paths describe.

A chain follows the hops of all paths and joins each table once, at the first hop that reaches it.
`firstHops` are these hops; each is what a search for its table finds (`mem_firstHops_iff`).
`clausesOf_eq_ok_iff` says when the hops can be followed and which
clauses they give, and `ofPaths_eq_ok_iff` when the paths describe a chain and which one. The tables
of a query are such a chain, be they joined for a combined schema (`joinedChain_eq_ok_iff`) or for a
statement (`sourceOf_eq_ok_iff`).
-/

namespace SemanticLayer

/-! ## First hops -/

/-- The hops that reach a table for the first time, if the tables in `seen` were reached before. -/
def firstHops (seen : List String) : List Hop → List Hop
  | [] => []
  | hop :: rest =>
    if hop.right ∈ seen then firstHops seen rest else hop :: firstHops (hop.right :: seen) rest

/-- A first hop is the one that is found by its table. -/
theorem mem_firstHops_iff {seen : List String} {hops : List Hop} {hop : Hop} :
    hop ∈ firstHops seen hops ↔
      hop.right ∉ seen ∧ hops.find? (·.right = hop.right) = some hop := by
  induction hops generalizing seen with
  | nil => simp [firstHops]
  | cons next rest ih =>
    rw [firstHops, List.find?_cons]
    by_cases hsame : next.right = hop.right
    -- Behind `next` there is no first hop to the same table.
    · have hlater : hop ∉ firstHops (hop.right :: seen) rest := by simp [ih]
      by_cases hseen : hop.right ∈ seen
      · simp [hsame, hseen, ih]
      · simp [hsame, hseen, hlater, eq_comm]
    · have hne : hop ≠ next := by
        rintro rfl
        exact hsame rfl
      by_cases hseen : next.right ∈ seen
      · simp [hseen, ih, hsame]
      · simp [hseen, ih, hsame, hne, Ne.symm hsame]

theorem mem_of_mem_firstHops {seen : List String} {hops : List Hop} {hop : Hop}
    (h : hop ∈ firstHops seen hops) : hop ∈ hops ∧ hop.right ∉ seen := by
  obtain ⟨hseen, hfind⟩ := mem_firstHops_iff.1 h
  exact ⟨List.mem_of_find?_eq_some hfind, hseen⟩

/-- Every table is reached by a first hop. -/
theorem exists_firstHop {seen : List String} {hops : List Hop} {hop : Hop} (h : hop ∈ hops)
    (hseen : hop.right ∉ seen) : ∃ first ∈ firstHops seen hops, first.right = hop.right := by
  have hfound : (hops.find? (·.right = hop.right)).isSome := by
    rw [List.find?_isSome]
    exact ⟨hop, h, by simp⟩
  obtain ⟨first, hfirst⟩ := Option.isSome_iff_exists.1 hfound
  have hright : first.right = hop.right := by simpa using List.find?_some hfirst
  exact ⟨first, mem_firstHops_iff.2 ⟨hright ▸ hseen, hright ▸ hfirst⟩, hright⟩

theorem nodup_firstHops (seen : List String) (hops : List Hop) :
    ((firstHops seen hops).map (·.right)).Nodup := by
  induction hops generalizing seen with
  | nil => exact List.nodup_nil
  | cons hop rest ih =>
    rw [firstHops]
    split
    · exact ih seen
    · rw [List.map_cons, List.nodup_cons]
      refine ⟨?_, ih _⟩
      intro hmem
      obtain ⟨later, hlater, hright⟩ := List.mem_map.1 hmem
      exact (mem_of_mem_firstHops hlater).2 (hright ▸ List.mem_cons_self)

/-- Hops to different tables are all first hops. -/
theorem firstHops_of_nodup {seen : List String} {hops : List Hop}
    (h : (hops.map (·.right)).Nodup) (hseen : ∀ hop ∈ hops, hop.right ∉ seen) :
    firstHops seen hops = hops := by
  induction hops generalizing seen with
  | nil => rfl
  | cons hop rest ih =>
    obtain ⟨hhop, hrest⟩ := List.nodup_cons.1 h
    rw [firstHops, if_neg (hseen hop List.mem_cons_self), ih hrest]
    intro next hnext hmem
    rcases List.mem_cons.1 hmem with heq | hmem
    · exact hhop (List.mem_map.2 ⟨next, hnext, heq⟩)
    · exact hseen next (List.mem_cons_of_mem _ hnext) hmem

/-- Hops to one table come from one table. -/
def OneSource (hops : List Hop) : Prop :=
  ∀ hop ∈ hops, ∀ other ∈ hops, hop.right = other.right → hop.left = other.left

theorem OneSource.of_subset {hops more : List Hop} (h : OneSource more) (hsub : hops ⊆ more) :
    OneSource hops :=
  fun hop hhop other hother => h hop (hsub hhop) other (hsub hother)

theorem oneSource_cons {hop : Hop} {hops : List Hop} :
    OneSource (hop :: hops) ↔
      OneSource hops ∧ ∀ other ∈ hops, other.right = hop.right → other.left = hop.left := by
  constructor
  · intro h
    refine ⟨h.of_subset (List.subset_cons_self _ _), fun other hother => ?_⟩
    exact h other (List.mem_cons_of_mem _ hother) hop List.mem_cons_self
  · rintro ⟨h, hhop⟩ a ha b hb hab
    rcases List.mem_cons.1 ha with rfl | ha'
    · rcases List.mem_cons.1 hb with rfl | hb'
      · rfl
      · exact (hhop b hb' hab.symm).symm
    · rcases List.mem_cons.1 hb with rfl | hb'
      · exact hhop a ha' hab
      · exact h a ha' b hb' hab

theorem oneSource_of_nodup {hops : List Hop} (h : (hops.map (·.right)).Nodup) : OneSource hops := by
  induction hops with
  | nil => simp [OneSource]
  | cons hop rest ih =>
    obtain ⟨hhop, hrest⟩ := List.nodup_cons.1 h
    refine oneSource_cons.2 ⟨ih hrest, fun other hother hsame => ?_⟩
    exact absurd (List.mem_map.2 ⟨other, hother, hsame⟩) hhop

/-! ## The clauses -/

namespace JoinChain

variable {tables : Dictionary} {graph : JoinGraph}

theorem sqlOf_eq_ok_iff {table sql : String} :
    sqlOf tables table = .ok sql ↔ tables.get? table = some sql := by
  rw [sqlOf]
  cases tables.get? table <;> simp

theorem clauseOf_eq_ok_iff {hop : Hop} {clause : JoinClause} :
    clauseOf tables graph hop = .ok clause ↔
      clause.hop = hop ∧ tables.get? hop.right = some clause.sql ∧
        graph.condition hop.left hop.right hop.on = some clause.condition := by
  rw [clauseOf, sqlOf]
  cases tables.get? hop.right with
  | none => simp
  | some sql =>
    cases graph.condition hop.left hop.right hop.on with
    | none => simp
    | some condition =>
      obtain ⟨clauseHop, clauseSql, clauseCondition⟩ := clause
      simp [eq_comm]

theorem hops_of_mapM {hops : List Hop} {clauses : List JoinClause}
    (h : hops.mapM (clauseOf tables graph) = .ok clauses) : clauses.map (·.hop) = hops := by
  rw [map_of_mapM_ok (k := id) h fun _ _ _ hclause => (clauseOf_eq_ok_iff.1 hclause).1, List.map_id]

theorem clausesOf_of_new {reached rest : List Hop} {hop : Hop}
    (h : reached.find? (·.right = hop.right) = none) :
    clausesOf tables graph reached (hop :: rest) =
      (do let clause ← clauseOf tables graph hop
          let clauses ← clausesOf tables graph (hop :: reached) rest
          pure (clause :: clauses)) := by
  rw [clausesOf, h]
  cases clauseOf tables graph hop with
  | error e => rfl
  | ok clause => cases clausesOf tables graph (hop :: reached) rest <;> rfl

/-- With the hops in `reached` taken before, the others can be followed exactly if all of them
together have one source for each table, and each first hop has a clause. -/
theorem clausesOf_eq_ok_iff {reached hops : List Hop} {clauses : List JoinClause}
    (h : OneSource reached) :
    clausesOf tables graph reached hops = .ok clauses ↔
      OneSource (reached ++ hops) ∧
        (firstHops (reached.map (·.right)) hops).mapM (clauseOf tables graph) = .ok clauses := by
  induction hops generalizing reached clauses with
  | nil => simp [clausesOf, firstHops, h, pure, Except.pure]
  | cons hop rest ih =>
    have hswap : OneSource (reached ++ hop :: rest) ↔ OneSource (hop :: (reached ++ rest)) :=
      ⟨fun hall => hall.of_subset (by simp), fun hall => hall.of_subset (by simp)⟩
    rw [firstHops, hswap]
    cases hfind : reached.find? (·.right = hop.right) with
    | some previous =>
      have hmem := List.mem_of_find?_eq_some hfind
      have hright : previous.right = hop.right := by simpa using List.find?_some hfind
      have hseen : hop.right ∈ reached.map (·.right) := hright ▸ List.mem_map_of_mem hmem
      rw [clausesOf, hfind, if_pos hseen]
      dsimp only
      by_cases hleft : previous.left = hop.left
      · have hrest : OneSource (hop :: (reached ++ rest)) ↔ OneSource (reached ++ rest) := by
          rw [oneSource_cons, and_iff_left_iff_imp]
          intro hall other hother hsame
          rw [← hleft]
          exact hall other hother previous (List.mem_append_left _ hmem) (hsame.trans hright.symm)
        rw [if_pos hleft, ih h, hrest]
      · rw [if_neg hleft]
        refine ⟨nofun, fun hall => absurd ?_ hleft⟩
        exact hall.1 previous (by simp [hmem]) hop (by simp) hright
    | none =>
      have hnew : ∀ other ∈ reached, other.right ≠ hop.right := by
        simpa using List.find?_eq_none.1 hfind
      have hseen : hop.right ∉ reached.map (·.right) := by
        intro hmem
        obtain ⟨other, hother, hright⟩ := List.mem_map.1 hmem
        exact hnew other hother hright
      have hreached : OneSource (hop :: reached) :=
        oneSource_cons.2 ⟨h, fun other hother hsame => absurd hsame (hnew other hother)⟩
      rw [clausesOf_of_new hfind, if_neg hseen, List.mapM_cons, bind_eq_ok, bind_eq_ok]
      simp only [bind_eq_ok, ih hreached, List.map_cons, List.cons_append]
      constructor
      · rintro ⟨clause, hclause, tail, ⟨hall, htail⟩, hclauses⟩
        exact ⟨hall, clause, hclause, tail, htail, hclauses⟩
      · rintro ⟨hall, clause, hclause, tail, htail, hclauses⟩
        exact ⟨clause, hclause, tail, ⟨hall, htail⟩, hclauses⟩

/-! ## The chain -/

/-- The hops that a chain follows. A first path that starts with a single table joins nothing. -/
def joinedHops (paths : List JoinPath) : List Hop :=
  match paths.head?.bind List.head? with
  | some (.join _) => paths.flatMap JoinPath.hops
  | _ => []

theorem joinedHops_of_single {paths : List JoinPath} {table : String}
    (h : paths.head?.bind List.head? = some (.single table)) : joinedHops paths = [] := by
  rw [joinedHops, h]

theorem joinedHops_of_join {paths : List JoinPath} {hop : Hop}
    (h : paths.head?.bind List.head? = some (.join hop)) :
    joinedHops paths = paths.flatMap JoinPath.hops := by
  rw [joinedHops, h]

theorem exists_path_of_mem_joinedHops {paths : List JoinPath} {hop : Hop}
    (h : hop ∈ joinedHops paths) : ∃ path ∈ paths, hop ∈ path.hops := by
  rw [joinedHops] at h
  split at h
  · exact List.mem_flatMap.1 h
  · cases h

/-- The chain starts where all paths start, and joins each table at the first hop that reaches
it. -/
structure Follows (chain : JoinChain) (paths : List JoinPath) (tables : Dictionary)
    (graph : JoinGraph) : Prop where
  paths_ne_nil : paths ≠ []
  origin_eq : ∀ path ∈ paths, path.origin = some chain.origin
  originSql_eq : tables.get? chain.origin = some chain.originSql
  one_source : OneSource (joinedHops paths)
  clauses_eq : (firstHops [] (joinedHops paths)).mapM (clauseOf tables graph) = .ok chain.clauses

theorem clausesOf_nil_eq_ok_iff {hops : List Hop} {clauses : List JoinClause} :
    clausesOf tables graph [] hops = .ok clauses ↔
      OneSource hops ∧ (firstHops [] hops).mapM (clauseOf tables graph) = .ok clauses :=
  clausesOf_eq_ok_iff (by simp [OneSource])

theorem Follows.exists_first {chain : JoinChain} {paths : List JoinPath}
    (h : chain.Follows paths tables graph) :
    ∃ first, paths.head?.bind List.head? = some first ∧ first.left = chain.origin := by
  obtain ⟨path, rest, rfl⟩ := List.exists_cons_of_ne_nil h.paths_ne_nil
  exact Option.map_eq_some_iff.1 (h.origin_eq path List.mem_cons_self)

theorem ofPaths_eq_ok_iff {paths : List JoinPath} {chain : JoinChain} :
    ofPaths paths tables graph = .ok chain ↔ chain.Follows paths tables graph := by
  constructor
  · intro h
    rw [ofPaths] at h
    split at h
    · cases h
    rename_i first hfirst
    split at h
    · cases h
    rename_i horigin
    split at h
    · cases h
    rename_i sql hsql
    have hne : paths ≠ [] := by
      rintro rfl
      cases hfirst
    have horigins : ∀ path ∈ paths, path.origin = some first.left := by simpa using horigin
    rw [sqlOf_eq_ok_iff] at hsql
    cases first with
    | single table =>
      cases h
      exact ⟨hne, horigins, hsql, by simp [joinedHops, hfirst, OneSource],
        by simp [joinedHops, hfirst, firstHops, pure, Except.pure]⟩
    | join hop =>
      dsimp only at h
      split at h
      · cases h
      · rename_i clauses hclauses
        cases h
        rw [← joinedHops_of_join hfirst] at hclauses
        obtain ⟨hone, hmap⟩ := clausesOf_nil_eq_ok_iff.1 hclauses
        exact ⟨hne, horigins, hsql, hone, hmap⟩
  · intro h
    obtain ⟨first, hfirst, hleft⟩ := h.exists_first
    have horigins : ¬ paths.any (·.origin ≠ some first.left) = true := by
      simpa [hleft] using h.origin_eq
    have hsql := sqlOf_eq_ok_iff.2 h.originSql_eq
    have hclauses := clausesOf_nil_eq_ok_iff.2 ⟨h.one_source, h.clauses_eq⟩
    obtain ⟨origin, originSql, clauses⟩ := chain
    dsimp only at hleft hsql hclauses
    subst hleft
    cases first with
    | single table =>
      simp only [joinedHops, hfirst, clausesOf, Except.ok.injEq] at hclauses
      simp only [ofPaths, hfirst, if_neg horigins, hsql, ← hclauses]
    | join hop =>
      simp only [joinedHops, hfirst] at hclauses
      simp only [ofPaths, hfirst, if_neg horigins, hsql, hclauses]

end JoinChain

/-! ## Valid paths -/

namespace JoinPath

theorem validate_eq_ok_iff {paths : List JoinPath} :
    validate paths = .ok () ↔ ∀ path ∈ paths, path.hasLoop = false := by
  simp [validate, anyLoop]

theorem right_ne_origin {path : JoinPath} {origin : String} {hop : Hop}
    (h : path.hasLoop = false) (horigin : path.origin = some origin) (hhop : hop ∈ path.hops) :
    hop.right ≠ origin := by
  rw [hasLoop, horigin, Bool.not_eq_false', decide_eq_true_eq] at h
  rintro rfl
  exact (List.nodup_cons.1 h).1 (List.mem_map_of_mem hhop)

end JoinPath

/-- No hop of valid paths leads back to the table where they all start. -/
theorem right_ne_common_origin {paths : List JoinPath} {origin : String} {hop : Hop}
    (hvalid : JoinPath.validate paths = .ok ())
    (horigin : ∀ path ∈ paths, path.origin = some origin)
    (hhop : hop ∈ JoinChain.joinedHops paths) : hop.right ≠ origin := by
  obtain ⟨path, hpath, hhop⟩ := JoinChain.exists_path_of_mem_joinedHops hhop
  exact JoinPath.right_ne_origin (JoinPath.validate_eq_ok_iff.1 hvalid path hpath)
    (horigin path hpath) hhop

/-! ## The chain of a query -/

theorem joinedChain_eq_ok_iff {schemas : List TableSchema} {q : Query} {chain : JoinChain} :
    joinedChain schemas q = .ok chain ↔
      ∃ graph, JoinGraph.build schemas (tableSql schemas) = .ok graph ∧
        JoinPath.validate q.joinPaths = .ok () ∧
        chain.Follows q.joinPaths (tableSql schemas) graph := by
  rw [joinedChain, bind_eq_ok]
  apply exists_congr
  intro graph
  rw [bind_eq_ok, ← JoinChain.ofPaths_eq_ok_iff]
  constructor
  · rintro ⟨hbuild, _, hvalid, hchain⟩
    exact ⟨hbuild, hvalid, hchain⟩
  · rintro ⟨hbuild, hvalid, hchain⟩
    exact ⟨hbuild, (), hvalid, hchain⟩

theorem JoinChain.Follows.head_origin {chain : JoinChain} {paths : List JoinPath}
    {tables : Dictionary} {graph : JoinGraph} (h : chain.Follows paths tables graph) :
    paths.head?.bind JoinPath.origin = some chain.origin := by
  obtain ⟨path, rest, rfl⟩ := List.exists_cons_of_ne_nil h.paths_ne_nil
  exact h.origin_eq path List.mem_cons_self

theorem ne_singleton_of_length {α : Type} {xs : List α} (h : xs.length ≠ 1) :
    ∀ x, xs = [x] → False := by
  rintro x rfl
  exact h rfl

/-- Looking up the origin first changes which error is reported, and no chain. -/
theorem sourceOf_eq_ok_iff {used : List TableSchema} {q : Query} {chain : JoinChain}
    (h : used.length ≠ 1) :
    Select.sourceOf q used = .ok chain ↔ joinedChain used q = .ok chain := by
  rw [joinedChain_eq_ok_iff, Select.sourceOf.eq_2 q used (ne_singleton_of_length h), bind_eq_ok]
  apply exists_congr
  intro graph
  rw [bind_eq_ok]
  constructor
  · rintro ⟨hbuild, _, hvalid, hchain⟩
    split at hchain
    · cases hchain
    · obtain ⟨_, _, hchain⟩ := bind_eq_ok.1 hchain
      exact ⟨hbuild, hvalid, JoinChain.ofPaths_eq_ok_iff.1 hchain⟩
  · rintro ⟨hbuild, hvalid, hchain⟩
    refine ⟨hbuild, (), hvalid, ?_⟩
    rw [hchain.head_origin]
    exact bind_eq_ok.2 ⟨chain.originSql, JoinChain.sqlOf_eq_ok_iff.2 hchain.originSql_eq,
      JoinChain.ofPaths_eq_ok_iff.2 hchain⟩

end SemanticLayer
