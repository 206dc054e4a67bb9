import Mathlib.Data.List.Perm.Subperm
import SemanticLayer.Proofs.GraphRuns

/-!
# SemanticLayer.Proofs.Cycles

Peeling finds the cycles of a join graph.

A `Walk` is a sequence of edges, each of which starts where the one before it ends. Edges are
`Sourceless` if each of them starts at a table that one of them leads to. The two meet in peeling:

* What is left after enough rounds is sourceless (`sourceless_peelTimes`), and sourceless edges can
  be walked backwards for ever, so they hold a cycle (`Sourceless.exists_cycle`).
* A cycle is sourceless (`Walk.sourceless`), and sourceless edges are never peeled off
  (`Sourceless.subset_peelTimes`).

`hasCycle_iff_closed_walk` puts them together. All edges of a graph are sourceless if it has no
starting table, so a graph without a cycle has one.
-/

namespace SemanticLayer
namespace JoinGraph

/-- `path` is a sequence of the given edges that leads from one table to another. -/
inductive Walk (edges : List JoinEdge) : String → List JoinEdge → String → Prop where
  | nil (table : String) : Walk edges table [] table
  | cons {e : JoinEdge} {path : List JoinEdge} {finish : String} :
    e ∈ edges → Walk edges e.target path finish → Walk edges e.source (e :: path) finish

/-- Each edge starts at a table that one of the edges leads to. -/
def Sourceless (edges : List JoinEdge) : Prop :=
  ∀ e ∈ edges, ∃ e' ∈ edges, e'.target = e.source

variable {edges : List JoinEdge}

/-! ## Walks -/

namespace Walk

variable {path : List JoinEdge} {start finish : String}

theorem subset (h : Walk edges start path finish) : path ⊆ edges := by
  induction h with
  | nil => exact List.nil_subset _
  | cons he _ ih => exact List.cons_subset.2 ⟨he, ih⟩

theorem mono {more : List JoinEdge} (hsub : edges ⊆ more) (h : Walk edges start path finish) :
    Walk more start path finish := by
  induction h with
  | nil table => exact .nil table
  | cons he _ ih => exact .cons (hsub he) ih

/-- A walk can be cut in two at any place. -/
theorem of_append {first second : List JoinEdge} (h : Walk edges start (first ++ second) finish) :
    ∃ middle, Walk edges start first middle ∧ Walk edges middle second finish := by
  induction first generalizing start with
  | nil => exact ⟨start, .nil start, h⟩
  | cons e rest ih =>
    cases h with
    | cons he hrest =>
      obtain ⟨middle, hfirst, hsecond⟩ := ih hrest
      exact ⟨middle, .cons he hfirst, hsecond⟩

/-- An edge of a walk starts where the walk does, or where another edge of the walk ends. -/
theorem source_cases (h : Walk edges start path finish) {e : JoinEdge} (he : e ∈ path) :
    e.source = start ∨ ∃ e' ∈ path, e'.target = e.source := by
  induction h with
  | nil => cases he
  | @cons first path finish _ _ ih =>
    rcases List.mem_cons.1 he with rfl | he
    · exact .inl rfl
    · right
      rcases ih he with hfirst | ⟨e', he', htarget⟩
      · exact ⟨first, List.mem_cons_self, hfirst.symm⟩
      · exact ⟨e', List.mem_cons_of_mem _ he', htarget⟩

theorem eq_of_nil (h : Walk edges start [] finish) : start = finish := by
  cases h
  rfl

theorem exists_last (h : Walk edges start path finish) (hne : path ≠ []) :
    ∃ e ∈ path, e.target = finish := by
  induction h with
  | nil => exact absurd rfl hne
  | @cons first path finish _ hrest ih =>
    cases path with
    | nil => exact ⟨first, List.mem_cons_self, hrest.eq_of_nil⟩
    | cons second rest =>
      obtain ⟨e, he, htarget⟩ := ih (List.cons_ne_nil _ _)
      exact ⟨e, List.mem_cons_of_mem _ he, htarget⟩

/-- The edges of a cycle are sourceless: the last one leads to the first one. -/
theorem sourceless {table : String} (h : Walk edges table path table) : Sourceless path := by
  intro e he
  rcases h.source_cases he with hstart | hother
  · obtain ⟨last, hlast, htarget⟩ := h.exists_last (List.ne_nil_of_mem he)
    exact ⟨last, hlast, htarget.trans hstart.symm⟩
  · exact hother

/-- A walk with more steps than there are edges takes one of them twice, and goes round in
between. -/
theorem exists_cycle (h : Walk edges start path finish) (hlong : edges.length < path.length) :
    ∃ table cycle, cycle ≠ [] ∧ Walk edges table cycle table := by
  have htwice : ¬ path.Nodup := by
    intro hnodup
    have hle := (hnodup.subperm h.subset).length_le
    omega
  rw [List.nodup_iff_sublist, not_forall_not] at htwice
  obtain ⟨e, hsub⟩ := htwice
  obtain ⟨left, right, rfl, hleft, hright⟩ := List.cons_sublist_iff.1 hsub
  obtain ⟨before, between, rfl⟩ := List.append_of_mem hleft
  obtain ⟨between', rest, rfl⟩ := List.append_of_mem (List.singleton_sublist.1 hright)
  -- The walk reads `before`, `e`, `between`, `between'`, `e`, `rest`.
  rw [List.append_assoc] at h
  obtain ⟨_, -, h⟩ := h.of_append
  rw [← List.append_assoc] at h
  obtain ⟨table, hcycle, h⟩ := h.of_append
  cases h with
  | cons _ _ =>
    cases hcycle with
    | cons he hrest => exact ⟨e.source, _, List.cons_ne_nil _ _, .cons he hrest⟩

end Walk

/-! ## Peeling -/

theorem mem_peel {e : JoinEdge} :
    e ∈ peel edges ↔ e ∈ edges ∧ ∃ e' ∈ edges, e'.target = e.source := by
  simp [peel]

theorem peel_eq_self_iff : peel edges = edges ↔ Sourceless edges := by
  simp [peel, Sourceless]

theorem peelTimes_of_peel_eq (h : peel edges = edges) (n : Nat) : peelTimes n edges = edges := by
  induction n with
  | zero => rfl
  | succ n ih => rw [peelTimes, h, ih]

theorem peelTimes_subset (n : Nat) (edges : List JoinEdge) : peelTimes n edges ⊆ edges := by
  induction n generalizing edges with
  | zero => exact List.Subset.refl _
  | succ n ih => exact List.Subset.trans (ih (peel edges)) fun _ he => (mem_peel.1 he).1

/-- A round that changes anything peels an edge off, so nothing changes any more after as many
rounds as there are edges. -/
theorem sourceless_peelTimes {n : Nat} (h : edges.length ≤ n) : Sourceless (peelTimes n edges) := by
  induction n generalizing edges with
  | zero =>
    rw [List.length_eq_zero_iff.1 (Nat.le_zero.1 h)]
    exact fun e he => nomatch he
  | succ n ih =>
    by_cases hsame : peel edges = edges
    · rw [peelTimes_of_peel_eq hsame]
      exact peel_eq_self_iff.1 hsame
    · have hsub : (peel edges).Sublist edges := List.filter_sublist
      have hlt : (peel edges).length < edges.length :=
        Nat.lt_of_not_le fun hle => hsame (hsub.eq_of_length_le hle)
      exact ih (by omega)

namespace Sourceless

theorem subset_peelTimes {kept : List JoinEdge} (h : Sourceless kept) (hsub : kept ⊆ edges)
    (n : Nat) : kept ⊆ peelTimes n edges := by
  induction n generalizing edges with
  | zero => exact hsub
  | succ n ih =>
    apply ih
    intro e he
    obtain ⟨e', he', htarget⟩ := h e he
    exact mem_peel.2 ⟨hsub he, e', hsub he', htarget⟩

/-- Sourceless edges can be walked backwards as far as one likes. -/
theorem exists_walk (h : Sourceless edges) {last : JoinEdge} (hlast : last ∈ edges) (n : Nat) :
    ∃ e ∈ edges, ∃ path, path.length = n ∧ Walk edges e.source path last.source := by
  induction n with
  | zero => exact ⟨last, hlast, [], rfl, .nil _⟩
  | succ n ih =>
    obtain ⟨e, he, path, hlength, hwalk⟩ := ih
    obtain ⟨e', he', htarget⟩ := h e he
    rw [← htarget] at hwalk
    exact ⟨e', he', e' :: path, by rw [List.length_cons, hlength], .cons he' hwalk⟩

theorem exists_cycle (h : Sourceless edges) (hne : edges ≠ []) :
    ∃ table path, path ≠ [] ∧ Walk edges table path table := by
  obtain ⟨last, hlast⟩ := List.exists_mem_of_ne_nil edges hne
  obtain ⟨_, _, path, hlength, hwalk⟩ := h.exists_walk hlast (edges.length + 1)
  exact hwalk.exists_cycle (by omega)

end Sourceless

/-! ## Graphs -/

theorem hasCycle_eq_true_iff {g : JoinGraph} :
    g.hasCycle = true ↔ peelTimes g.edges.length g.edges ≠ [] := by
  simp [hasCycle]

theorem hasCycle_of_sourceless {g : JoinGraph} {kept : List JoinEdge} (h : Sourceless kept)
    (hsub : kept ⊆ g.edges) (hne : kept ≠ []) : g.hasCycle = true := by
  rw [hasCycle_eq_true_iff]
  exact List.ne_nil_of_mem (h.subset_peelTimes hsub _ (List.head_mem hne))

/-- A table where an edge starts and none ends is a starting table. -/
theorem Coherent.source_mem_startingTables {g : JoinGraph} (h : g.Coherent) {e : JoinEdge}
    (he : e ∈ g.edges) (hnone : ∀ e' ∈ g.edges, e'.target ≠ e.source) :
    e.source ∈ g.startingTables := by
  rw [h.startingTables_eq_filter, List.mem_filter]
  refine ⟨?_, decide_eq_true hnone⟩
  rw [mentions, List.mem_eraseDups]
  exact List.mem_flatMap.2 ⟨e, he, List.mem_cons_self⟩

/-- A graph has a cycle exactly if some of its edges, taken one after another, lead from a table
back to it. A graph that has edges and no cycle has a starting table. -/
theorem hasCycle_iff_closed_walk (es : List JoinEdge) :
    ((after es).hasCycle = true ↔
      ∃ table path, path ≠ [] ∧ Walk (after es).edges table path table) ∧
    (0 < (after es).edgeCount → (after es).hasCycle = false → (after es).startingTables ≠ []) := by
  have hcoherent := coherent_after es
  refine ⟨⟨?_, ?_⟩, ?_⟩
  · intro hcycle
    obtain ⟨table, path, hne, hwalk⟩ :=
      (sourceless_peelTimes (Nat.le_refl _)).exists_cycle (hasCycle_eq_true_iff.1 hcycle)
    exact ⟨table, path, hne, hwalk.mono (peelTimes_subset _ _)⟩
  · rintro ⟨table, path, hne, hwalk⟩
    exact hasCycle_of_sourceless hwalk.sourceless hwalk.subset hne
  · intro hcount hacyclic
    rw [hcoherent.edgeCount_eq] at hcount
    have hsource : ¬ Sourceless (after es).edges := by
      intro hsourceless
      rw [hasCycle_of_sourceless hsourceless (List.Subset.refl _)
        (List.ne_nil_of_length_pos hcount)] at hacyclic
      cases hacyclic
    simp only [Sourceless, not_forall, not_exists, not_and] at hsource
    obtain ⟨e, he, hnone⟩ := hsource
    exact List.ne_nil_of_mem (hcoherent.source_mem_startingTables he hnone)

/-- Orders that reach regions in two ways, customers over two columns, and stock apart from them. -/
def diamondEdges : List JoinEdge :=
  [⟨"orders", "customers", "customer_id", "orders.customer_id = customers.id"⟩,
   ⟨"orders", "customers", "payer_id", "orders.payer_id = customers.id"⟩,
   ⟨"orders", "stores", "store_id", "orders.store_id = stores.id"⟩,
   ⟨"customers", "regions", "region_id", "customers.region_id = regions.id"⟩,
   ⟨"stores", "regions", "region_id", "stores.region_id = regions.id"⟩,
   ⟨"stock", "items", "item_id", "stock.item_id = items.id"⟩]

theorem diamond_hasCycle_iff_closed_walk :
    0 < (after diamondEdges).edgeCount ∧ (after diamondEdges).hasCycle = false ∧
      (after diamondEdges).startingTables ≠ [] ∧
      ¬ ∃ table path, path ≠ [] ∧ Walk (after diamondEdges).edges table path table := by
  have hacyclic : (after diamondEdges).hasCycle = false := by decide +kernel
  obtain ⟨hiff, hstart⟩ := hasCycle_iff_closed_walk diamondEdges
  refine ⟨by decide +kernel, hacyclic, hstart (by decide +kernel) hacyclic, ?_⟩
  rw [← hiff, hacyclic]
  exact Bool.false_ne_true

end JoinGraph
end SemanticLayer
