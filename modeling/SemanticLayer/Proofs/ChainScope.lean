import SemanticLayer.Proofs.GraphBuild
import SemanticLayer.Proofs.ChainText
import SemanticLayer.Proofs.JoinedTables

/-!
# SemanticLayer.Proofs.ChainScope

The tables that a join can refer to.

A hop names the table it starts from, and nothing checks that this table is there: a hop may start
anywhere (`stray_hop_out_of_scope`). `Rooted` says of hops that each starts at a known table or at
one that a hop before it leads to. A chain leaves out the hops that lead to a table again, but this
does not change whether they are rooted (`rooted_firstHops_iff`). So `joins_in_scope_iff` can say
from the paths alone whether each join of a chain starts at a table that is joined already.
-/

namespace SemanticLayer

/-! ## Rooted hops -/

/-- Each hop starts at a table in `scope`, or at one that a hop before it leads to. -/
def Rooted : List String → List Hop → Prop
  | _, [] => True
  | scope, hop :: rest => hop.left ∈ scope ∧ Rooted (hop.right :: scope) rest

instance decidableRooted : (scope : List String) → (hops : List Hop) → Decidable (Rooted scope hops)
  | _, [] => inferInstanceAs (Decidable True)
  | scope, hop :: rest =>
    have := decidableRooted (hop.right :: scope) rest
    inferInstanceAs (Decidable (hop.left ∈ scope ∧ Rooted (hop.right :: scope) rest))

theorem rooted_iff {scope : List String} {hops : List Hop} :
    Rooted scope hops ↔ ∀ earlier hop later, hops = earlier ++ hop :: later →
      hop.left ∈ scope ∨ hop.left ∈ earlier.map (·.right) := by
  induction hops generalizing scope with
  | nil => simp [Rooted]
  | cons first rest ih =>
    rw [Rooted, ih]
    constructor
    · rintro ⟨hfirst, hrest⟩ earlier hop later heq
      cases earlier with
      | nil =>
        cases heq
        exact .inl hfirst
      | cons e earlier =>
        cases heq
        rcases hrest earlier hop later rfl with hmem | hmem
        · rcases List.mem_cons.1 hmem with hright | hscope
          · exact .inr (by simp [hright])
          · exact .inl hscope
        · exact .inr (List.mem_cons_of_mem _ hmem)
    · intro h
      refine ⟨by simpa using h [] first rest rfl, fun earlier hop later heq => ?_⟩
      rcases h (first :: earlier) hop later (by rw [heq, List.cons_append]) with hscope | hmem
      · exact .inl (List.mem_cons_of_mem _ hscope)
      · rcases List.mem_cons.1 hmem with hright | hmem
        · exact .inl (by simp [hright])
        · exact .inr hmem

theorem Rooted.mono {scope more : List String} {hops : List Hop} (h : Rooted scope hops)
    (hsub : scope ⊆ more) : Rooted more hops := by
  induction hops generalizing scope more with
  | nil => trivial
  | cons hop rest ih => exact ⟨hsub h.1, ih h.2 (List.cons_subset_cons _ hsub)⟩

theorem Rooted.append {scope : List String} {hops more : List Hop} (h : Rooted scope hops)
    (hmore : Rooted scope more) : Rooted scope (hops ++ more) := by
  induction hops generalizing scope with
  | nil => exact hmore
  | cons hop rest ih => exact ⟨h.1, ih h.2 (hmore.mono (List.subset_cons_self _ _))⟩

theorem rooted_flatMap {scope : List String} {paths : List JoinPath}
    (h : ∀ path ∈ paths, Rooted scope path.hops) : Rooted scope (paths.flatMap JoinPath.hops) := by
  induction paths with
  | nil => trivial
  | cons path rest ih =>
    rw [List.flatMap_cons]
    exact (h path List.mem_cons_self).append (ih fun p hp => h p (List.mem_cons_of_mem _ hp))

/-- Leaving out hops to tables that were reached before changes nothing, if the tables those hops
start from are in scope. -/
theorem rooted_firstHops_iff {scope seen : List String} {hops : List Hop} (hone : OneSource hops)
    (hseen : seen ⊆ scope) (hleft : ∀ hop ∈ hops, hop.right ∈ seen → hop.left ∈ scope) :
    Rooted scope (firstHops seen hops) ↔ Rooted scope hops := by
  induction hops generalizing scope seen with
  | nil => rfl
  | cons hop rest ih =>
    obtain ⟨hrest, hsource⟩ := oneSource_cons.1 hone
    rw [firstHops, Rooted]
    by_cases hmem : hop.right ∈ seen
    · have hscope : Rooted (hop.right :: scope) rest ↔ Rooted scope rest :=
        ⟨fun h => h.mono (List.cons_subset.2 ⟨hseen hmem, List.Subset.refl _⟩),
          fun h => h.mono (List.subset_cons_self _ _)⟩
      rw [if_pos hmem, hscope, ih hrest hseen fun next hnext => hleft next (.tail _ hnext)]
      simp [hleft hop List.mem_cons_self hmem]
    · rw [if_neg hmem, Rooted]
      refine and_congr_right fun hhop => ih hrest (List.cons_subset_cons _ hseen) ?_
      -- A later hop to the same table starts where this one does, so it is in scope as well.
      intro next hnext hright
      rcases List.mem_cons.1 hright with hsame | hright
      · rw [hsource next hnext hsame]
        exact List.mem_cons_of_mem _ hhop
      · exact List.mem_cons_of_mem _ (hleft next (.tail _ hnext) hright)

/-! ## Joins in scope -/

namespace JoinChain

variable {tables : Dictionary} {graph : JoinGraph} {chain : JoinChain} {paths : List JoinPath}

/-- Each join starts at the origin or at the table of a join before it. -/
def InScope (chain : JoinChain) : Prop :=
  ∀ earlier clause later, chain.clauses = earlier ++ clause :: later →
    clause.hop.left = chain.origin ∨ clause.hop.left ∈ earlier.map (·.hop.right)

theorem inScope_iff_rooted : chain.InScope ↔ Rooted [chain.origin] (chain.clauses.map (·.hop)) := by
  rw [rooted_iff]
  constructor
  · intro h earlier hop later heq
    obtain ⟨before, rest, hclauses, rfl, hrest⟩ := List.map_eq_append_iff.1 heq
    obtain ⟨clause, after, rfl, rfl, rfl⟩ := List.map_eq_cons_iff.1 hrest
    simpa using h before clause after hclauses
  · intro h earlier clause later heq
    have hclause := h (earlier.map (·.hop)) clause.hop (later.map (·.hop)) (by simp [heq])
    simpa using hclause

theorem Follows.inScope_iff (h : chain.Follows paths tables graph) :
    chain.InScope ↔ Rooted [chain.origin] (joinedHops paths) := by
  rw [inScope_iff_rooted, hops_of_mapM h.clauses_eq]
  exact rooted_firstHops_iff h.one_source (List.nil_subset _) (by simp)

theorem rooted_joinedHops {scope : List String} (h : ∀ path ∈ paths, Rooted scope path.hops) :
    Rooted scope (joinedHops paths) := by
  rw [joinedHops]
  split
  · exact rooted_flatMap h
  · trivial

/-- With a graph that was built, the condition of a join in scope names no table but the one that is
joined and those before it. -/
theorem Follows.sides_in_scope (h : chain.Follows paths tables graph) {schemas : List TableSchema}
    {known : Dictionary} (hbuild : JoinGraph.build schemas known = .ok graph)
    (hscope : chain.InScope) {earlier later : List JoinClause} {clause : JoinClause}
    (hclauses : chain.clauses = earlier ++ clause :: later) :
    ∃ left right, parseJoin clause.condition = some (left, right) ∧
      ∀ side ∈ [left, right],
        side.table ∈ chain.origin :: (earlier ++ [clause]).map (·.hop.right) := by
  have hmem : clause ∈ chain.clauses := by simp [hclauses]
  obtain ⟨left, right, hparse, hleft, hright⟩ :=
    JoinGraph.sides_of_condition hbuild ((joinsEach_of_mapM h.clauses_eq).condition_eq clause hmem)
  have hends : ∀ table ∈ [clause.hop.left, clause.hop.right],
      table ∈ chain.origin :: (earlier ++ [clause]).map (·.hop.right) := by
    intro table htable
    rcases List.mem_pair.1 htable with rfl | rfl
    · rcases hscope earlier clause later hclauses with horigin | hearlier
      · simp [horigin]
      · rw [List.map_append]
        exact List.mem_cons_of_mem _ (List.mem_append_left _ hearlier)
    · simp
  refine ⟨left, right, hparse, fun side hside => ?_⟩
  rcases List.mem_pair.1 hside with rfl | rfl
  · exact hends _ hleft
  · exact hends _ hright

/-- All joins of a chain are in scope exactly if each hop of the paths, in their order, starts at
the origin or at a table that a hop before it leads to, as it is when this holds of each path. The
conditions of a graph that was built then name no other tables. -/
theorem joins_in_scope_iff (h : ofPaths paths tables graph = .ok chain) :
    (chain.InScope ↔ Rooted [chain.origin] (joinedHops paths)) ∧
    ((∀ path ∈ paths, Rooted [chain.origin] path.hops) → chain.InScope) ∧
    ∀ schemas known, JoinGraph.build schemas known = .ok graph → chain.InScope →
      ∀ earlier clause later, chain.clauses = earlier ++ clause :: later →
        ∃ left right, parseJoin clause.condition = some (left, right) ∧
          ∀ side ∈ [left, right],
            side.table ∈ chain.origin :: (earlier ++ [clause]).map (·.hop.right) := by
  have hfollows := ofPaths_eq_ok_iff.1 h
  refine ⟨hfollows.inScope_iff, fun hpaths => ?_, fun schemas known hbuild hscope => ?_⟩
  · exact hfollows.inScope_iff.2 (rooted_joinedHops hpaths)
  · exact fun earlier clause later => hfollows.sides_in_scope hbuild hscope

theorem route_joins_in_scope :
    ∃ graph chain, JoinGraph.build routeSchemas (tableSql routeSchemas) = .ok graph ∧
      ofPaths routeQuery.joinPaths (tableSql routeSchemas) graph = .ok chain ∧ chain.InScope ∧
      ∀ earlier clause later, chain.clauses = earlier ++ clause :: later →
        ∃ left right, parseJoin clause.condition = some (left, right) ∧
          ∀ side ∈ [left, right],
            side.table ∈ chain.origin :: (earlier ++ [clause]).map (·.hop.right) := by
  obtain ⟨chain, hchain⟩ := exists_of_isOk (x := joinedChain routeSchemas routeQuery)
    (by decide +kernel)
  obtain ⟨graph, hbuild, -, hfollows⟩ := joinedChain_eq_ok_iff.1 hchain
  have hok := ofPaths_eq_ok_iff.2 hfollows
  obtain ⟨hiff, -, hsides⟩ := joins_in_scope_iff hok
  have horigin : chain.origin = "shop.orders" := by
    simpa [routeQuery, JoinPath.origin, PathNode.left] using hfollows.head_origin.symm
  have hscope : chain.InScope := by
    rw [hiff, horigin]
    decide
  exact ⟨graph, chain, hbuild, hok, hscope, hsides _ _ hbuild hscope⟩

/-- The second hop starts at a table that no hop leads to. -/
def strayPaths : List JoinPath :=
  [[.join ⟨"orders", "customers", "customer_id"⟩, .join ⟨"stores", "regions", "region_id"⟩]]

def straySchemas : List TableSchema :=
  [{ name := "orders"
     sql := "SELECT * FROM orders"
     dimensions := [{ name := "id", sql := "orders.id", type := .number }]
     joins := [⟨"orders.customer_id = customers.id"⟩] },
   { name := "customers"
     sql := "SELECT * FROM customers" },
   { name := "stores"
     sql := "SELECT * FROM stores"
     joins := [⟨"stores.region_id = regions.id"⟩] },
   { name := "regions"
     sql := "SELECT * FROM regions" }]

/-- An edge whose condition names a table that the edge does not touch. -/
def borrowedGraph : JoinGraph :=
  .after [⟨"orders", "customers", "customer_id", "stores.owner_id = customers.id"⟩]

/-- Valid paths may have a hop that starts at a table outside the statement. In a graph that was not
built from declarations, also the condition of a hop in scope may name such a table. -/
theorem stray_hop_out_of_scope :
    (∃ graph chain, JoinGraph.build straySchemas (tableSql straySchemas) = .ok graph ∧
      JoinPath.validate strayPaths = .ok () ∧
      ofPaths strayPaths (tableSql straySchemas) graph = .ok chain ∧ ¬ chain.InScope) ∧
    ∃ paths chain left right, JoinPath.validate paths = .ok () ∧
      ofPaths paths (tableSql straySchemas) borrowedGraph = .ok chain ∧ chain.InScope ∧
      chain.clauses.map (fun clause => parseJoin clause.condition) = [some (left, right)] ∧
      left.table ∉ chain.origin :: chain.clauses.map (·.hop.right) := by
  constructor
  · obtain ⟨chain, hchain⟩ := exists_of_isOk
      (x := joinedChain straySchemas { joinPaths := strayPaths }) (by decide +kernel)
    obtain ⟨graph, hbuild, hvalid, hfollows⟩ := joinedChain_eq_ok_iff.1 hchain
    have horigin : chain.origin = "orders" := by
      simpa [strayPaths, JoinPath.origin, PathNode.left] using hfollows.head_origin.symm
    refine ⟨graph, chain, hbuild, hvalid, ofPaths_eq_ok_iff.2 hfollows, ?_⟩
    rw [hfollows.inScope_iff, horigin]
    decide
  · refine ⟨[[.join ⟨"orders", "customers", "customer_id"⟩]],
      { origin := "orders", originSql := "SELECT * FROM orders",
        clauses := [⟨⟨"orders", "customers", "customer_id"⟩, "SELECT * FROM customers",
          "stores.owner_id = customers.id"⟩] },
      ⟨"stores", "owner_id"⟩, ⟨"customers", "id"⟩, by decide +kernel,
      eq_ok_of_toOption (by decide +kernel), inScope_iff_rooted.2 (by decide), by decide +kernel,
      by decide⟩

end JoinChain
end SemanticLayer
