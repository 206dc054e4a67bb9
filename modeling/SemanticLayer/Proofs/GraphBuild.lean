import SemanticLayer.Proofs.Calling
import SemanticLayer.Proofs.GraphRuns

/-!
# SemanticLayer.Proofs.GraphBuild

Join graphs that are built from the declarations of schemas.

Each declaration stands for an edge, and the graph has the edges between tables that are known, in
the order of the declarations (`edges_of_build`). It can be built exactly if all declarations can be
read and no two of these edges have the same key (`exists_build_iff`). `Declares` says which edge a
declaration stands for without the reading of it, and `built_from_declarations` puts the two results
in these terms.
-/

namespace SemanticLayer
namespace JoinGraph

/-- The edges that the declarations of the schemas stand for. -/
def declaredEdges (schemas : List TableSchema) : Except CompileError (List JoinEdge) :=
  (declarations schemas).mapM fun d => edgeOf d.1 d.2.sql

/-- Both tables of the edge are known. -/
def keeps (known : Dictionary) (e : JoinEdge) : Bool :=
  known.contains e.source && known.contains e.target

/-- The declaration `sql` of the table `owner` has one side for `owner` and one for another table,
in either order, and `e` leads from the one to the other. -/
def Declares (owner sql : String) (e : JoinEdge) : Prop :=
  ∃ own other : JoinSide,
    (parseJoin sql = some (own, other) ∨ parseJoin sql = some (other, own)) ∧
      own.table = owner ∧ other.table ≠ owner ∧
      e = { source := owner, target := other.table, column := own.column, condition := sql }

/-! ## Reading a declaration -/

theorem edgeOf_eq_ok_iff {owner sql : String} {e : JoinEdge} :
    edgeOf owner sql = .ok e ↔ Declares owner sql e := by
  rw [edgeOf, Declares]
  cases hparse : parseJoin sql with
  | none => simp
  | some sides =>
    obtain ⟨left, right⟩ := sides
    simp only [Option.some.injEq, Prod.mk.injEq]
    by_cases hself : left.table = right.table
    · rw [if_pos hself]
      refine ⟨nofun, ?_⟩
      rintro ⟨own, other, ⟨rfl, rfl⟩ | ⟨rfl, rfl⟩, rfl, hne, -⟩
      · exact absurd hself.symm hne
      · exact absurd hself hne
    rw [if_neg hself]
    by_cases hleft : left.table = owner
    · rw [if_pos hleft, Except.ok.injEq]
      constructor
      · rintro rfl
        exact ⟨left, right, .inl ⟨rfl, rfl⟩, hleft, hleft ▸ Ne.symm hself, rfl⟩
      · rintro ⟨own, other, ⟨rfl, rfl⟩ | ⟨rfl, rfl⟩, -, hne, rfl⟩
        · rfl
        · exact absurd hleft hne
    rw [if_neg hleft]
    by_cases hright : right.table = owner
    · rw [if_pos hright, Except.ok.injEq]
      constructor
      · rintro rfl
        exact ⟨right, left, .inr ⟨rfl, rfl⟩, hright, hleft, rfl⟩
      · rintro ⟨own, other, ⟨rfl, rfl⟩ | ⟨rfl, rfl⟩, howner, -, rfl⟩
        · exact absurd howner hleft
        · rfl
    · rw [if_neg hright]
      refine ⟨nofun, ?_⟩
      rintro ⟨own, other, ⟨rfl, rfl⟩ | ⟨rfl, rfl⟩, howner, -, -⟩
      · exact absurd howner hleft
      · exact absurd howner hright

/-- A declared edge starts at the table that declares it, and ends at another one. -/
theorem edgeOf_ok {owner sql : String} {e : JoinEdge} (h : edgeOf owner sql = .ok e) :
    e.source = owner ∧ e.source ≠ e.target := by
  obtain ⟨own, other, -, -, hne, rfl⟩ := edgeOf_eq_ok_iff.1 h
  exact ⟨rfl, Ne.symm hne⟩

/-- A declaration stands for an edge exactly if it names two tables, and its own is one of them. -/
theorem exists_edgeOf_iff {owner sql : String} :
    (∃ e, edgeOf owner sql = .ok e) ↔ ∃ left right, parseJoin sql = some (left, right) ∧
      left.table ≠ right.table ∧ (left.table = owner ∨ right.table = owner) := by
  simp only [edgeOf_eq_ok_iff]
  constructor
  · rintro ⟨e, own, other, hparse | hparse, howner, hne, -⟩
    · exact ⟨own, other, hparse, howner ▸ Ne.symm hne, .inl howner⟩
    · exact ⟨other, own, hparse, howner ▸ hne, .inr howner⟩
  · rintro ⟨left, right, hparse, hne, howner | howner⟩
    · exact ⟨_, left, right, .inl hparse, howner, howner ▸ Ne.symm hne, rfl⟩
    · exact ⟨_, right, left, .inr hparse, howner, howner ▸ hne, rfl⟩

variable {known : Dictionary}

/-! ## One declaration -/

namespace Coherent

variable {g g' : JoinGraph}

theorem of_addEdge (h : g.Coherent) {e : JoinEdge} (hok : g.addEdge e = .ok g') :
    g'.Coherent ∧ g'.edges = g.edges ++ [e] ∧ e.key ∉ g.edges.map JoinEdge.key := by
  rcases h.insert_cases e with ⟨-, hinsert⟩ | ⟨hvalid, next, hinsert, hnext, hedges⟩
  · simp [addEdge, hinsert] at hok
  · rw [addEdge, hinsert] at hok
    cases hok
    exact ⟨hnext, hedges, (not_or.1 hvalid).2⟩

theorem exists_addEdge (h : g.Coherent) {e : JoinEdge} (hself : e.source ≠ e.target)
    (hkey : e.key ∉ g.edges.map JoinEdge.key) : ∃ g', g.addEdge e = .ok g' := by
  obtain ⟨g', hinsert, -⟩ := h.insert_of_valid hself hkey
  exact ⟨g', by rw [addEdge, hinsert]⟩

theorem of_declare (h : g.Coherent) {d : String × JoinDeclaration}
    (hok : declare known g d = .ok g') :
    ∃ e, edgeOf d.1 d.2.sql = .ok e ∧ g'.Coherent ∧
      g'.edges = g.edges ++ [e].filter (keeps known) := by
  rw [declare] at hok
  cases he : edgeOf d.1 d.2.sql with
  | error err => simp [he] at hok
  | ok e =>
    simp only [he] at hok
    refine ⟨e, rfl, ?_⟩
    by_cases hkeeps : keeps known e = true
    · rw [← keeps, if_pos hkeeps] at hok
      obtain ⟨hg', hedges, -⟩ := h.of_addEdge hok
      exact ⟨hg', by simp [hedges, hkeeps]⟩
    · rw [← keeps, if_neg hkeeps] at hok
      cases hok
      exact ⟨h, by simp [hkeeps]⟩

theorem exists_declare (h : g.Coherent) {d : String × JoinDeclaration} {e : JoinEdge}
    (he : edgeOf d.1 d.2.sql = .ok e)
    (hkeys : ((g.edges ++ [e].filter (keeps known)).map JoinEdge.key).Nodup) :
    ∃ g', declare known g d = .ok g' := by
  simp only [declare, he]
  by_cases hkeeps : keeps known e = true
  · rw [← keeps, if_pos hkeeps]
    have hnew : e.key ∉ g.edges.map JoinEdge.key := by
      simp only [List.filter_cons_of_pos hkeeps, List.filter_nil, List.map_append] at hkeys
      intro hmem
      exact (List.nodup_append.1 hkeys).2.2 _ hmem _ List.mem_cons_self rfl
    exact h.exists_addEdge (edgeOf_ok he).2 hnew
  · rw [← keeps, if_neg hkeeps]
    exact ⟨g, rfl⟩

/-! ## All declarations -/

theorem of_foldlM_declare (h : g.Coherent) {ds : List (String × JoinDeclaration)}
    (hok : ds.foldlM (declare known) g = .ok g') :
    ∃ es, ds.mapM (fun d => edgeOf d.1 d.2.sql) = .ok es ∧ g'.Coherent ∧
      g'.edges = g.edges ++ es.filter (keeps known) := by
  induction ds generalizing g with
  | nil =>
    cases hok
    exact ⟨[], rfl, h, by simp⟩
  | cons d rest ih =>
    rw [List.foldlM_cons] at hok
    obtain ⟨next, hnext, hok⟩ := bind_eq_ok.1 hok
    obtain ⟨e, he, hcoherent, hedges⟩ := h.of_declare hnext
    obtain ⟨es, hes, hg', hrest⟩ := ih hcoherent hok
    refine ⟨e :: es, ?_, hg', ?_⟩
    · rw [mapM_eq_ok, List.map_cons, he, mapM_eq_ok.1 hes, List.map_cons]
    · rw [hrest, hedges, List.append_assoc, ← List.filter_append, List.singleton_append]

theorem exists_foldlM_declare (h : g.Coherent) {ds : List (String × JoinDeclaration)}
    {es : List JoinEdge} (hes : ds.mapM (fun d => edgeOf d.1 d.2.sql) = .ok es)
    (hkeys : ((g.edges ++ es.filter (keeps known)).map JoinEdge.key).Nodup) :
    ∃ g', ds.foldlM (declare known) g = .ok g' := by
  induction ds generalizing g es with
  | nil => exact ⟨g, rfl⟩
  | cons d rest ih =>
    rw [List.mapM_cons] at hes
    obtain ⟨e, he, hes⟩ := bind_eq_ok.1 hes
    obtain ⟨tail, htail, hes⟩ := bind_eq_ok.1 hes
    cases hes
    -- The first edge is among those with different keys, and so are the others after it.
    rw [← List.singleton_append, List.filter_append, ← List.append_assoc] at hkeys
    have hfirst : ((g.edges ++ [e].filter (keeps known)).map JoinEdge.key).Nodup := by
      rw [List.map_append] at hkeys
      exact (List.nodup_append.1 hkeys).1
    obtain ⟨next, hnext⟩ := h.exists_declare he hfirst
    obtain ⟨e', he', hcoherent, hedges⟩ := h.of_declare hnext
    rw [he] at he'
    cases he'
    rw [← hedges] at hkeys
    obtain ⟨g', hg'⟩ := ih hcoherent htail hkeys
    exact ⟨g', by rw [List.foldlM_cons]; exact bind_eq_ok.2 ⟨next, hnext, hg'⟩⟩

end Coherent

variable {schemas : List TableSchema}

theorem edges_of_build {g : JoinGraph} (h : build schemas known = .ok g) :
    ∃ es, declaredEdges schemas = .ok es ∧ g.Coherent ∧ g.edges = es.filter (keeps known) :=
  coherent_empty.of_foldlM_declare h

theorem exists_build_iff :
    (∃ g, build schemas known = .ok g) ↔
      ∃ es, declaredEdges schemas = .ok es ∧
        ((es.filter (keeps known)).map JoinEdge.key).Nodup := by
  constructor
  · rintro ⟨g, hg⟩
    obtain ⟨es, hes, hcoherent, hedges⟩ := edges_of_build hg
    exact ⟨es, hes, hedges ▸ hcoherent.nodup_keys⟩
  · rintro ⟨es, hes, hkeys⟩
    exact coherent_empty.exists_foldlM_declare hes hkeys

theorem exists_declaredEdges_iff :
    (∃ es, declaredEdges schemas = .ok es) ↔
      ∀ s ∈ schemas, ∀ j ∈ s.joins, ∃ left right, parseJoin j.sql = some (left, right) ∧
        left.table ≠ right.table ∧ (left.table = s.name ∨ right.table = s.name) := by
  simp only [declaredEdges, exists_mapM_ok_iff, declarations, List.forall_mem_flatMap,
    List.forall_mem_map, exists_edgeOf_iff]

/-- Whether the kept edges differ in their keys can be told from the declarations. -/
theorem nodup_keys_iff {es : List JoinEdge} (h : declaredEdges schemas = .ok es) :
    ((es.filter (keeps known)).map JoinEdge.key).Nodup ↔
      (declarations schemas).Pairwise fun d d' => ∀ e e',
        Declares d.1 d.2.sql e → Declares d'.1 d'.2.sql e' →
          keeps known e = true → keeps known e' = true → e.key ≠ e'.key := by
  rw [List.Nodup, List.pairwise_map, List.pairwise_filter, pairwise_of_mapM_ok h]
  simp only [edgeOf_eq_ok_iff]

/-- Every declaration of a schema in a graph that was built can be read. -/
theorem edgeOf_of_build {g : JoinGraph} (h : build schemas known = .ok g) {s : TableSchema}
    (hs : s ∈ schemas) {j : JoinDeclaration} (hj : j ∈ s.joins) :
    ∃ e, edgeOf s.name j.sql = .ok e := by
  obtain ⟨es, hes, -⟩ := edges_of_build h
  have hmem : (s.name, j) ∈ declarations schemas :=
    List.mem_flatMap.2 ⟨s, hs, List.mem_map_of_mem hj⟩
  obtain ⟨e, -, he⟩ := exists_of_mapM_ok hes hmem
  exact ⟨e, he⟩

/-- The condition of an edge in a graph that was built names the two tables of the edge. -/
theorem sides_of_condition {g : JoinGraph} (h : build schemas known = .ok g)
    {source target column condition : String}
    (hcondition : g.condition source target column = some condition) :
    ∃ left right, parseJoin condition = some (left, right) ∧
      left.table ∈ [source, target] ∧ right.table ∈ [source, target] := by
  obtain ⟨es, hes, hcoherent, hedges⟩ := edges_of_build h
  have hmem := hcoherent.condition_eq_some_iff.1 hcondition
  rw [hedges] at hmem
  obtain ⟨d, -, hd⟩ := exists_of_mem_mapM_ok hes (List.mem_filter.1 hmem).1
  obtain ⟨own, other, hparse, howner, -, he⟩ := edgeOf_eq_ok_iff.1 hd
  cases he
  rcases hparse with hparse | hparse
  · exact ⟨own, other, hparse, by simp [howner], by simp⟩
  · exact ⟨other, own, hparse, by simp, by simp [howner]⟩

/-- The graph can be built exactly if each declaration names its own table and another one, and any
two declarations between known tables differ in their tables or in the column of the declaring one.
It then has these declarations as its edges, in their order, each from the table that declares
it. -/
theorem built_from_declarations (schemas : List TableSchema) (known : Dictionary) :
    ((∃ g, build schemas known = .ok g) ↔
      (∀ s ∈ schemas, ∀ j ∈ s.joins, ∃ left right, parseJoin j.sql = some (left, right) ∧
        left.table ≠ right.table ∧ (left.table = s.name ∨ right.table = s.name)) ∧
      (declarations schemas).Pairwise fun d d' => ∀ e e',
        Declares d.1 d.2.sql e → Declares d'.1 d'.2.sql e' →
          keeps known e = true → keeps known e' = true → e.key ≠ e'.key) ∧
    ∀ g, build schemas known = .ok g →
      ∃ es, List.Forall₂ (fun e d => Declares d.1 d.2.sql e) es (declarations schemas) ∧
        g.edges = es.filter (keeps known) := by
  refine ⟨?_, fun g hg => ?_⟩
  · rw [exists_build_iff, ← exists_declaredEdges_iff]
    constructor
    · rintro ⟨es, hes, hkeys⟩
      exact ⟨⟨es, hes⟩, (nodup_keys_iff hes).1 hkeys⟩
    · rintro ⟨⟨es, hes⟩, hpairs⟩
      exact ⟨es, hes, (nodup_keys_iff hes).2 hpairs⟩
  · obtain ⟨es, hes, -, hedges⟩ := edges_of_build hg
    exact ⟨es, forall₂_of_mapM_ok hes fun d _ e he => edgeOf_eq_ok_iff.1 he, hedges⟩

/-- Two tables that point at each other, one of them over two columns; a third one is not known. -/
def mutualSchemas : List TableSchema :=
  [{ name := "orders"
     sql := "SELECT * FROM orders"
     joins :=
       [⟨"customers.id = orders.customer_id"⟩, ⟨"orders.region_id = regions.id"⟩,
        ⟨"orders.\"Payer ID\" = customers.id"⟩] },
   { name := "customers"
     sql := "SELECT * FROM customers"
     joins := [⟨"customers.last_order_id = orders.id"⟩] }]

theorem mutual_built_from_declarations :
    ∃ g, build mutualSchemas (tableSql mutualSchemas) = .ok g ∧
      g.edges.map JoinEdge.key =
        [("orders", "customers", "customer_id"), ("orders", "customers", "Payer ID"),
         ("customers", "orders", "last_order_id")] ∧
      ∃ es, List.Forall₂ (fun e d => Declares d.1 d.2.sql e) es (declarations mutualSchemas) ∧
        g.edges = es.filter (keeps (tableSql mutualSchemas)) := by
  obtain ⟨g, hg⟩ := exists_of_isOk (x := build mutualSchemas (tableSql mutualSchemas))
    (by decide +kernel)
  have hkeys : (build mutualSchemas (tableSql mutualSchemas)).toOption.map
      (fun g => g.edges.map JoinEdge.key) = some
        [("orders", "customers", "customer_id"), ("orders", "customers", "Payer ID"),
         ("customers", "orders", "last_order_id")] := by decide +kernel
  rw [hg] at hkeys
  exact ⟨g, hg, Option.some.inj hkeys,
    (built_from_declarations mutualSchemas (tableSql mutualSchemas)).2 g hg⟩

end JoinGraph
end SemanticLayer
