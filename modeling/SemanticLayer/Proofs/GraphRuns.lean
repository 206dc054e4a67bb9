import Mathlib.Data.List.Nodup
import SemanticLayer.Join.Graph

/-!
# SemanticLayer.Proofs.GraphRuns

What stays true of a join graph while edges are added to it.

The tables of a graph are kept twice, as a list and by name, and its links know them by number only.
`Coherent` says how the three fit together. One insertion keeps it (`Coherent.insert`), so every
sequence of insertions does (`coherent_after`), whichever of them fail. Of a coherent graph all
questions can be answered from the list of its edges: `condition_eq_some_iff`, `hasEdge_iff`,
`edgesFrom_eq_filter` and `startingTables_eq_filter`. `lawful_after` puts this together.
-/

namespace SemanticLayer

/-- What tells an edge from all others of its graph. -/
def JoinEdge.key (e : JoinEdge) : String × String × String := (e.source, e.target, e.column)

namespace JoinGraph

/-- The tables of the edges in order of first mention, the source of an edge before its target. -/
def mentions (edges : List JoinEdge) : List String :=
  (edges.flatMap fun e => [e.source, e.target]).eraseDups

/-- Each table has the number of its place in the list. -/
def Numbered (g : JoinGraph) : Prop :=
  ∀ table n, g.number? table = some n ↔ g.tables[n]? = some table

structure Coherent (g : JoinGraph) : Prop where
  numbered : g.Numbered
  /-- Both ends of a link are tables of the graph. -/
  resolved : ∀ l ∈ g.links, ∃ e, g.edge? l = some e
  no_self_edge : ∀ e ∈ g.edges, e.source ≠ e.target
  nodup_keys : (g.edges.map JoinEdge.key).Nodup
  tables_eq : g.tables = mentions g.edges

/-! ## Links and their edges -/

theorem edge?_eq_some_iff {g : JoinGraph} {l : JoinLink} {e : JoinEdge} :
    g.edge? l = some e ↔ g.tables[l.source]? = some e.source ∧
      g.tables[l.target]? = some e.target ∧ l.column = e.column ∧ l.condition = e.condition := by
  rw [edge?]
  cases g.tables[l.source]? with
  | none => simp
  | some source =>
    cases g.tables[l.target]? with
    | none => simp
    | some target =>
      cases e
      simp

/-- A link stands for the same edge when tables are added at the end. -/
theorem edge?_of_append {g g' : JoinGraph} {more : List String}
    (h : g'.tables = g.tables ++ more) {l : JoinLink} {e : JoinEdge} (he : g.edge? l = some e) :
    g'.edge? l = some e := by
  have hkept : ∀ {n : Nat} {table : String}, g.tables[n]? = some table →
      g'.tables[n]? = some table := by
    intro n table htable
    have hn : n < g.tables.length := (List.getElem?_eq_some_iff.1 htable).1
    rw [h, List.getElem?_append_left hn, htable]
  rw [edge?_eq_some_iff] at he ⊢
  exact ⟨hkept he.1, hkept he.2.1, he.2.2⟩

theorem mem_edges {g : JoinGraph} {e : JoinEdge} :
    e ∈ g.edges ↔ ∃ l ∈ g.links, g.edge? l = some e := List.mem_filterMap

theorem Numbered.nodup_tables {g : JoinGraph} (h : g.Numbered) : g.tables.Nodup := by
  rw [List.nodup_iff_getElem?_ne_getElem?]
  intro i j hij hj he
  have htable : g.tables[j]? = some g.tables[j] := List.getElem?_eq_getElem hj
  have hi := (h _ i).2 (he.trans htable)
  rw [(h _ j).2 htable] at hi
  cases hi
  omega

namespace Coherent

variable {g : JoinGraph}

/-- The numbers of the tables of an edge are those of its link. -/
theorem numbers_of_edge? (h : g.Coherent) {l : JoinLink} {e : JoinEdge} (he : g.edge? l = some e) :
    g.number? e.source = some l.source ∧ g.number? e.target = some l.target := by
  obtain ⟨hsource, htarget, -⟩ := edge?_eq_some_iff.1 he
  exact ⟨(h.numbered _ _).2 hsource, (h.numbered _ _).2 htarget⟩

theorem edgeCount_eq (h : g.Coherent) : g.edgeCount = g.edges.length := by
  have hsome : ∀ l ∈ g.links, (g.edge? l).isSome := by
    intro l hl
    obtain ⟨e, he⟩ := h.resolved l hl
    rw [he]
    rfl
  rw [edgeCount, edges, List.length_filterMap_eq_countP, List.countP_eq_length.2 hsome]

/-! ## Questions -/

theorem condition_eq_some_iff (h : g.Coherent) {source target column condition : String} :
    g.condition source target column = some condition ↔
      { source, target, column, condition } ∈ g.edges := by
  constructor
  · intro hc
    rw [JoinGraph.condition] at hc
    split at hc
    · rename_i s t hs ht
      obtain ⟨l, hl, rfl⟩ := Option.map_eq_some_iff.1 hc
      have hends := List.find?_some hl
      rw [decide_eq_true_eq] at hends
      obtain ⟨rfl, rfl, rfl⟩ := hends
      refine mem_edges.2 ⟨l, List.mem_of_find?_eq_some hl, ?_⟩
      exact edge?_eq_some_iff.2 ⟨(h.numbered _ _).1 hs, (h.numbered _ _).1 ht, rfl, rfl⟩
    · cases hc
  · intro he
    obtain ⟨l, hl, hedge⟩ := mem_edges.1 he
    obtain ⟨hs, ht⟩ := h.numbers_of_edge? hedge
    -- Some link is found, and its edge has the same key, so it is the same edge.
    have hfound : (g.links.find? fun k => k.source = l.source ∧ k.target = l.target ∧
        k.column = column).isSome := by
      rw [List.find?_isSome]
      exact ⟨l, hl, by simpa using (edge?_eq_some_iff.1 hedge).2.2.1⟩
    obtain ⟨k, hk⟩ := Option.isSome_iff_exists.1 hfound
    have hends := List.find?_some hk
    rw [decide_eq_true_eq] at hends
    obtain ⟨hsource, htarget, rfl⟩ := hends
    have hkmem := List.mem_of_find?_eq_some hk
    have hkedge : g.edge? k =
        some { source, target, column := k.column, condition := k.condition } :=
      edge?_eq_some_iff.2 ⟨hsource ▸ (edge?_eq_some_iff.1 hedge).1,
        htarget ▸ (edge?_eq_some_iff.1 hedge).2.1, rfl, rfl⟩
    have hsame := List.inj_on_of_nodup_map h.nodup_keys (mem_edges.2 ⟨k, hkmem, hkedge⟩) he rfl
    rw [JoinEdge.mk.injEq] at hsame
    dsimp only at hs ht
    rw [JoinGraph.condition, hs, ht]
    dsimp only
    rw [hk, Option.map_some, hsame.2.2.2]

theorem isSome_condition_iff (h : g.Coherent) {source target column : String} :
    (g.condition source target column).isSome ↔
      (source, target, column) ∈ g.edges.map JoinEdge.key := by
  rw [Option.isSome_iff_exists, List.mem_map]
  constructor
  · rintro ⟨c, hc⟩
    exact ⟨_, h.condition_eq_some_iff.1 hc, rfl⟩
  · rintro ⟨e, he, hkey⟩
    cases hkey
    exact ⟨e.condition, h.condition_eq_some_iff.2 he⟩

theorem hasEdge_iff (h : g.Coherent) {source target : String} :
    g.hasEdge source target = true ↔ ∃ e ∈ g.edges, e.source = source ∧ e.target = target := by
  constructor
  · intro hedge
    rw [hasEdge] at hedge
    split at hedge
    · rename_i s t hs ht
      obtain ⟨l, hl, hends⟩ := List.any_eq_true.1 hedge
      obtain ⟨rfl, rfl⟩ := of_decide_eq_true hends
      refine ⟨⟨source, target, l.column, l.condition⟩, mem_edges.2 ⟨l, hl, ?_⟩, rfl, rfl⟩
      exact edge?_eq_some_iff.2 ⟨(h.numbered _ _).1 hs, (h.numbered _ _).1 ht, rfl, rfl⟩
    · cases hedge
  · rintro ⟨e, he, rfl, rfl⟩
    obtain ⟨l, hl, hedge⟩ := mem_edges.1 he
    obtain ⟨hs, ht⟩ := h.numbers_of_edge? hedge
    rw [hasEdge, hs, ht]
    exact List.any_eq_true.2 ⟨l, hl, by simp⟩

theorem edgesFrom_eq_filter (h : g.Coherent) (table : String) :
    g.edgesFrom table = g.edges.filter (·.source = table) := by
  rw [edgesFrom, edges, List.filter_filterMap]
  cases hn : g.number? table with
  | none =>
    symm
    rw [List.filterMap_eq_nil_iff]
    intro l hl
    obtain ⟨e, he⟩ := h.resolved l hl
    have hne : e.source ≠ table := by
      rintro rfl
      rw [(h.numbers_of_edge? he).1] at hn
      cases hn
    simp [he, hne]
  | some n =>
    dsimp only
    rw [List.filterMap_filter]
    apply List.filterMap_congr
    intro l hl
    obtain ⟨e, he⟩ := h.resolved l hl
    have hsource := (h.numbers_of_edge? he).1
    by_cases hl : l.source = n
    · have htable : e.source = table := by
        have hat := (h.numbered _ _).1 hn
        rw [← hl, (edge?_eq_some_iff.1 he).1] at hat
        exact Option.some.inj hat
      simp [he, hl, htable, Option.filter]
    · have hne : e.source ≠ table := by
        rintro rfl
        rw [hsource] at hn
        exact hl (Option.some.inj hn)
      simp [he, hl, hne, Option.filter]

/-- Whether edges lead to a table can be told from its name or from its number. -/
theorem target_ne_iff (h : g.Coherent) {table : String} {n : Nat} (hn : g.tables[n]? = some table) :
    (∀ l ∈ g.links, l.target ≠ n) ↔ ∀ e ∈ g.edges, e.target ≠ table := by
  constructor
  · intro hall e he htable
    obtain ⟨l, hl, hedge⟩ := mem_edges.1 he
    have hnumber := (h.numbers_of_edge? hedge).2
    rw [htable, (h.numbered _ _).2 hn] at hnumber
    exact hall l hl (Option.some.inj hnumber).symm
  · intro hall l hl hnumber
    obtain ⟨e, he⟩ := h.resolved l hl
    have hat := (edge?_eq_some_iff.1 he).2.1
    rw [hnumber, hn] at hat
    exact hall e (mem_edges.2 ⟨l, hl, he⟩) (Option.some.inj hat).symm

theorem startingTables_eq_filter (h : g.Coherent) :
    g.startingTables = (mentions g.edges).filter fun t => ∀ e ∈ g.edges, e.target ≠ t := by
  have hfilter : (g.tables.zipIdx.filter fun t => g.links.all (·.target ≠ t.2)) =
      g.tables.zipIdx.filter ((fun t => decide (∀ e ∈ g.edges, e.target ≠ t)) ∘ Prod.fst) := by
    apply List.filter_congr
    intro t ht
    rw [Bool.eq_iff_iff]
    simp [← h.target_ne_iff (List.mem_zipIdx_iff_getElem?.1 ht)]
  rw [startingTables, hfilter, ← List.filter_map, List.zipIdx_map_fst, h.tables_eq]

end Coherent

/-! ## One insertion -/

/-- Add a table unless it is already there. -/
def mention (tables : List String) (table : String) : List String :=
  if table ∈ tables then tables else tables ++ [table]

theorem exists_mention_eq_append (tables : List String) (table : String) :
    ∃ more, mention tables table = tables ++ more := by
  rw [mention]
  split
  · exact ⟨[], (List.append_nil _).symm⟩
  · exact ⟨[table], rfl⟩

theorem eraseDups_concat (xs : List String) (x : String) :
    (xs ++ [x]).eraseDups = mention xs.eraseDups x := by
  rw [List.eraseDups_append, mention]
  by_cases h : x ∈ xs <;> simp [List.removeAll, List.eraseDups_cons, h]

theorem mentions_concat (edges : List JoinEdge) (e : JoinEdge) :
    mentions (edges ++ [e]) = mention (mention (mentions edges) e.source) e.target := by
  have hflat : (edges ++ [e]).flatMap (fun e => [e.source, e.target]) =
      edges.flatMap (fun e => [e.source, e.target]) ++ [e.source] ++ [e.target] := by simp
  rw [mentions, hflat, eraseDups_concat, eraseDups_concat, mentions]

theorem mem_tables_iff {g : JoinGraph} (h : g.Numbered) {table : String} :
    table ∈ g.tables ↔ ∃ n, g.number? table = some n := by
  rw [List.mem_iff_getElem?]
  exact exists_congr fun n => (h table n).symm

theorem number?_withTable (g : JoinGraph) (table t : String) :
    (g.withTable table).number? t = if t = table then some g.tables.length else g.number? t := by
  rw [number?, withTable, List.lookup_cons]
  by_cases h : t = table
  · simp [h]
  · simp [h, beq_eq_false_iff_ne.2 h, number?]

theorem Numbered.withTable {g : JoinGraph} (h : g.Numbered) {table : String}
    (hnew : table ∉ g.tables) : (g.withTable table).Numbered := by
  intro t n
  rw [number?_withTable, JoinGraph.withTable, List.getElem?_append]
  by_cases hlt : n < g.tables.length
  · rw [if_pos hlt, ← h t n]
    split
    · rename_i ht
      have hne : g.number? t ≠ some n := fun hn => hnew (ht ▸ (mem_tables_iff h).2 ⟨n, hn⟩)
      simp [hne, Nat.ne_of_gt hlt]
    · rfl
  · have hnone : g.number? t ≠ some n := by
      rw [ne_eq, h t n, List.getElem?_eq_none (Nat.le_of_not_lt hlt)]
      simp
    rw [if_neg hlt, List.getElem?_singleton]
    by_cases ht : t = table
    · simp [ht]
      omega
    · simp [ht, hnone, Ne.symm ht]

/-- A table that is entered has a number, and nothing else of the graph changes. -/
theorem Numbered.enter {g g' : JoinGraph} (h : g.Numbered) {table : String} {n : Nat}
    (he : g.enter table = (n, g')) :
    g'.Numbered ∧ g'.number? table = some n ∧ g'.tables = mention g.tables table ∧
      g'.links = g.links := by
  rw [JoinGraph.enter] at he
  split at he
  · rename_i m hm
    cases he
    rw [mention, if_pos ((mem_tables_iff h).2 ⟨n, hm⟩)]
    exact ⟨h, hm, rfl, rfl⟩
  · rename_i hnone
    cases he
    have hnew : table ∉ g.tables := by
      intro hmem
      obtain ⟨n, hsome⟩ := (mem_tables_iff h).1 hmem
      rw [hsome] at hnone
      cases hnone
    rw [mention, if_neg hnew]
    exact ⟨h.withTable hnew, by rw [number?_withTable, if_pos rfl], rfl, rfl⟩

/-- An insertion that is not refused adds one link, and the tables at its ends where they are
new. -/
theorem Numbered.insert {g : JoinGraph} (h : g.Numbered) {e : JoinEdge}
    (hvalid : ¬ (e.source = e.target ∨ (g.condition e.source e.target e.column).isSome)) :
    ∃ g' link, g.insert e = (.ok (), g') ∧ g'.Numbered ∧
      g'.tables = mention (mention g.tables e.source) e.target ∧
      g'.links = g.links ++ [link] ∧ g'.edge? link = some e := by
  rcases hfirst : g.enter e.source with ⟨s, g₁⟩
  rcases hsecond : g₁.enter e.target with ⟨t, g₂⟩
  obtain ⟨h₁, hs, htables₁, hlinks₁⟩ := h.enter hfirst
  obtain ⟨h₂, ht, htables₂, hlinks₂⟩ := h₁.enter hsecond
  let link : JoinLink := { source := s, target := t, column := e.column, condition := e.condition }
  refine ⟨{ g₂ with links := g₂.links ++ [link] }, link, ?_, h₂, ?_, ?_, ?_⟩
  · rw [JoinGraph.insert, if_neg hvalid, hfirst]
    dsimp only
    rw [hsecond]
  · rw [← htables₁]
    exact htables₂
  · rw [← hlinks₁, ← hlinks₂]
  · obtain ⟨more, hmore⟩ := exists_mention_eq_append g₁.tables e.target
    have hsource : g₁.tables[s]? = some e.source := (h₁ _ _).1 hs
    have hlt : s < g₁.tables.length := (List.getElem?_eq_some_iff.1 hsource).1
    refine edge?_eq_some_iff.2 ⟨?_, (h₂ _ _).1 ht, rfl, rfl⟩
    rw [htables₂, hmore, List.getElem?_append_left hlt, hsource]

namespace Coherent

variable {g : JoinGraph}

/-- An edge between two tables with a key of its own is added at the end. -/
theorem insert_of_valid (h : g.Coherent) {e : JoinEdge} (hself : e.source ≠ e.target)
    (hkey : e.key ∉ g.edges.map JoinEdge.key) :
    ∃ g', g.insert e = (.ok (), g') ∧ g'.Coherent ∧ g'.edges = g.edges ++ [e] := by
  have hvalid : ¬ (e.source = e.target ∨ (g.condition e.source e.target e.column).isSome) := by
    rw [h.isSome_condition_iff]
    exact not_or.2 ⟨hself, hkey⟩
  obtain ⟨g', link, hinsert, hnumbered, htables, hlinks, hlink⟩ := h.numbered.insert hvalid
  obtain ⟨more, hmore⟩ := exists_mention_eq_append g.tables e.source
  obtain ⟨rest, hrest⟩ := exists_mention_eq_append (mention g.tables e.source) e.target
  have happend : g'.tables = g.tables ++ (more ++ rest) := by
    rw [htables, hrest, hmore, List.append_assoc]
  -- The old links stand for what they stood for before.
  have hold : ∀ l ∈ g.links, g'.edge? l = g.edge? l := by
    intro l hl
    obtain ⟨e', he'⟩ := h.resolved l hl
    rw [he', edge?_of_append happend he']
  have hedges : g'.edges = g.edges ++ [e] := by
    rw [edges, hlinks, List.filterMap_append, List.filterMap_congr hold, edges]
    simp [hlink]
  refine ⟨g', hinsert, ⟨hnumbered, ?_, ?_, ?_, ?_⟩, hedges⟩
  · intro l hl
    rw [hlinks, List.mem_append, List.mem_singleton] at hl
    rcases hl with hl | rfl
    · rw [hold l hl]
      exact h.resolved l hl
    · exact ⟨e, hlink⟩
  · intro e' he'
    rw [hedges, List.mem_append, List.mem_singleton] at he'
    rcases he' with he' | rfl
    · exact h.no_self_edge e' he'
    · exact hself
  · rw [hedges, List.map_append, List.nodup_append]
    refine ⟨h.nodup_keys, List.nodup_singleton _, ?_⟩
    intro key hmem key' hmem' he
    rw [List.mem_singleton.1 hmem'] at he
    exact hkey (he ▸ hmem)
  · rw [htables, h.tables_eq, hedges, mentions_concat]

/-- What an insertion can do: refuse the edge and leave the graph alone, or add the edge. -/
theorem insert_cases (h : g.Coherent) (e : JoinEdge) :
    (e.source = e.target ∨ e.key ∈ g.edges.map JoinEdge.key) ∧
        g.insert e = (.error .invalidPath, g) ∨
      ¬ (e.source = e.target ∨ e.key ∈ g.edges.map JoinEdge.key) ∧
        ∃ g', g.insert e = (.ok (), g') ∧ g'.Coherent ∧ g'.edges = g.edges ++ [e] := by
  by_cases hrefused : e.source = e.target ∨ e.key ∈ g.edges.map JoinEdge.key
  · refine .inl ⟨hrefused, if_pos ?_⟩
    rw [h.isSome_condition_iff]
    exact hrefused
  · obtain ⟨hself, hkey⟩ := not_or.1 hrefused
    exact .inr ⟨hrefused, h.insert_of_valid hself hkey⟩

theorem insert (h : g.Coherent) (e : JoinEdge) : (g.insert e).2.Coherent := by
  rcases h.insert_cases e with ⟨-, hinsert⟩ | ⟨-, g', hinsert, hg', -⟩
  · rw [hinsert]
    exact h
  · rw [hinsert]
    exact hg'

end Coherent

/-! ## Runs -/

theorem coherent_empty : empty.Coherent := by
  refine ⟨?_, ?_, ?_, ?_, rfl⟩ <;> simp [Numbered, number?, empty, edges]

/-- The graph after a sequence of insertions into the empty one, refused ones among them. -/
def after (es : List JoinEdge) : JoinGraph := es.foldl (fun g e => (g.insert e).2) empty

theorem coherent_after (es : List JoinEdge) : (after es).Coherent := by
  have hrun : ∀ g : JoinGraph, g.Coherent →
      (es.foldl (fun g e => (g.insert e).2) g).Coherent := by
    induction es with
    | nil => exact fun g h => h
    | cons e rest ih => exact fun g h => ih _ (h.insert e)
  exact hrun empty coherent_empty

/-- What holds of a join graph at any time: its tables and edges, what an insertion does to it, and
what it answers. -/
structure Lawful (g : JoinGraph) : Prop where
  nodup_tables : g.tables.Nodup
  /-- The index leads from each name to its own place among the tables, and from no other text. -/
  number?_iff : ∀ table n, g.number? table = some n ↔ g.tables[n]? = some table
  no_self_edge : ∀ e ∈ g.edges, e.source ≠ e.target
  nodup_keys : (g.edges.map JoinEdge.key).Nodup
  edgeCount_eq : g.edgeCount = g.edges.length
  insert_refused_iff : ∀ e, (g.insert e).1 = .error .invalidPath ↔
    e.source = e.target ∨ e.key ∈ g.edges.map JoinEdge.key
  /-- There is no other error, and after an error the graph is as it was. -/
  insert_error : ∀ e err, (g.insert e).1 = .error err → err = .invalidPath ∧ (g.insert e).2 = g
  insert_ok : ∀ e, (g.insert e).1 = .ok () → (g.insert e).2.edges = g.edges ++ [e]
  condition_iff : ∀ source target column condition,
    g.condition source target column = some condition ↔
      { source, target, column, condition } ∈ g.edges
  hasEdge_iff : ∀ source target, g.hasEdge source target = true ↔
    ∃ e ∈ g.edges, e.source = source ∧ e.target = target
  edgesFrom_eq : ∀ table, g.edgesFrom table = g.edges.filter (·.source = table)
  startingTables_eq : g.startingTables =
    (mentions g.edges).filter fun table => ∀ e ∈ g.edges, e.target ≠ table

/-- Every graph that comes out of a sequence of insertions is lawful. -/
theorem lawful_after (es : List JoinEdge) : (after es).Lawful := by
  have h := coherent_after es
  refine ⟨h.numbered.nodup_tables, h.numbered, h.no_self_edge, h.nodup_keys, h.edgeCount_eq, ?_, ?_,
    ?_, fun _ _ _ _ => h.condition_eq_some_iff, fun _ _ => h.hasEdge_iff, h.edgesFrom_eq_filter,
    h.startingTables_eq_filter⟩
  · intro e
    rcases h.insert_cases e with ⟨hrefused, hinsert⟩ | ⟨hvalid, g', hinsert, -⟩
    · rw [hinsert]
      exact iff_of_true rfl hrefused
    · rw [hinsert]
      exact iff_of_false (by simp) hvalid
  · intro e err herr
    rcases h.insert_cases e with ⟨-, hinsert⟩ | ⟨-, g', hinsert, -⟩
    · rw [hinsert] at herr ⊢
      cases herr
      exact ⟨rfl, rfl⟩
    · rw [hinsert] at herr
      cases herr
  · intro e hok
    rcases h.insert_cases e with ⟨-, hinsert⟩ | ⟨-, g', hinsert, -, hedges⟩
    · rw [hinsert] at hok
      cases hok
    · rw [hinsert]
      exact hedges

end JoinGraph
end SemanticLayer
