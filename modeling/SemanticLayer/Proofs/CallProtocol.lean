import SemanticLayer.Proofs.Calls

/-!
# SemanticLayer.Proofs.CallProtocol

How resolution calls the compiler, for every compiler and every request.

`compile_calls_in_turn` says that the calls are made one after another, that the first one to fail
ends the run with its error, and how many calls a run that succeeds has made: one if no column is
resolved, two if scalars are, five if arrays are.
-/

namespace SemanticLayer
namespace Resolution

open Calling (FailsLast)
open Compiler (Answered Answers)

variable {σ : Type} {compiler : Compiler σ} {style : KeyStyle} {request : Request}
  {config : ResolutionConfig} {context : Option ContextParams} {s : σ} {log : List Answered}
  {t : σ × List Answered}

/-! ## Phases that succeed make one call each -/

theorem log_unnest {base next : TableSchema}
    (h : (unnest compiler.recorded base config context).run (s, log) = (.ok next, t)) :
    ∃ a, t.2 = a :: log ∧ a.call = unnestCall base config context := by
  obtain ⟨sql, hcall, -⟩ := unnest_ok h
  obtain ⟨s₁, -, rfl⟩ := Compiler.run_recorded_ok hcall
  exact ⟨_, rfl, rfl⟩

theorem log_resolve {base next : TableSchema} {projections : List String}
    (h : (resolve compiler.recorded base config projections context).run (s, log) = (.ok next, t)) :
    ∃ a, t.2 = a :: log := by
  obtain ⟨lookups, sql, dimensions, -, hcall, -, -⟩ := resolve_ok h
  obtain ⟨s₁, -, rfl⟩ := Compiler.run_recorded_ok hcall
  exact ⟨_, rfl⟩

theorem log_aggregate {resolved next : TableSchema}
    (h : (aggregate compiler.recorded resolved config context).run (s, log) = (.ok next, t)) :
    ∃ a rowId, t.2 = a :: log ∧ resolved.dimension? rowIdName = some rowId ∧
      a.call = aggregateCall config resolved rowId context := by
  obtain ⟨rowId, sql, hrow, hcall, -⟩ := aggregate_ok h
  obtain ⟨s₁, -, rfl⟩ := Compiler.run_recorded_ok hcall
  exact ⟨_, rowId, rfl, hrow, rfl⟩

theorem log_restoreAliases {aggregated : TableSchema} {schemas : List TableSchema} {sql : String}
    (h : (restoreAliases compiler.recorded aggregated schemas config context).run (s, log) =
      (.ok sql, t)) :
    ∃ a, t.2 = a :: log ∧ a.answer = .ok sql := by
  obtain ⟨aliases, -, hcall⟩ := restoreAliases_ok h
  obtain ⟨s₁, -, rfl⟩ := Compiler.run_recorded_ok hcall
  exact ⟨_, rfl, rfl⟩

/-! ## Runs that succeed -/

theorem log_resolveArrays {baseSql sql : String}
    (h : (resolveArrays compiler.recorded style request baseSql config).run (s, log) =
      (.ok sql, t)) :
    ∃ a₂ a₃ a₄ a₅, t.2 = a₅ :: a₄ :: a₃ :: a₂ :: log ∧ a₅.answer = .ok sql := by
  obtain ⟨run⟩ := resolveArrays_ok h
  obtain ⟨a₂, h₂, -⟩ := log_unnest run.unnests
  obtain ⟨a₃, h₃⟩ := log_resolve run.resolves
  obtain ⟨a₄, _, h₄, -⟩ := log_aggregate run.aggregates
  obtain ⟨a₅, h₅, hanswer⟩ := log_restoreAliases run.restores
  rw [h₄, h₃, h₂] at h₅
  exact ⟨a₂, a₃, a₄, a₅, h₅, hanswer⟩

theorem log_resolveScalars {baseSql sql : String}
    (h : (resolveScalars compiler.recorded style request baseSql config).run (s, log) =
      (.ok sql, t)) :
    ∃ a inner, t.2 = a :: log ∧ a.answer = .ok inner ∧
      sql = "SELECT * EXCLUDE (\"__row_id\") FROM (" ++ inner
        ++ ") AS __row_id_ordered ORDER BY \"__row_id\"" := by
  obtain ⟨base, aliases, lookups, inner, -, -, -, hcall, hsql⟩ := resolveScalars_ok h
  obtain ⟨s₁, -, rfl⟩ := Compiler.run_recorded_ok hcall
  exact ⟨_, inner, rfl, rfl, hsql⟩

/-- A column is resolved if its safe name is the safe key of a projection. -/
def IsProjected (request : Request) (c : ColumnConfig) : Prop :=
  ∃ p ∈ request.projections, c.safeName = Member.safeKey p

theorem mem_projectedConfig {c : ColumnConfig} :
    c ∈ (projectedConfig request).columnConfigs ↔
      c ∈ request.config.columnConfigs ∧ IsProjected request c := by
  simp [projectedConfig, ResolutionConfig.restrictTo, IsProjected, eq_comm]

/-- The calls of a run that ends with `sql`, the last one at the end. -/
structure Protocol (request : Request) (sql : String) (made : List Answered) : Prop where
  unresolved : (∀ c ∈ request.config.columnConfigs, ¬ IsProjected request c) →
    ∃ a, made = [a] ∧ a.answer = .ok sql
  scalars : (∃ c ∈ request.config.columnConfigs, IsProjected request c) →
    (∀ c ∈ request.config.columnConfigs, IsProjected request c → c.isArrayType = false) →
    ∃ a₁ a₂ inner, made = [a₁, a₂] ∧ a₂.answer = .ok inner ∧
      sql = "SELECT * EXCLUDE (\"__row_id\") FROM (" ++ inner
        ++ ") AS __row_id_ordered ORDER BY \"__row_id\""
  arrays : (∃ c ∈ request.config.columnConfigs, IsProjected request c ∧ c.isArrayType = true) →
    ∃ a₁ a₂ a₃ a₄ a₅, made = [a₁, a₂, a₃, a₄, a₅] ∧ a₅.answer = .ok sql

theorem protocol_of_run {sql : String}
    (h : (compile compiler.recorded style request).run (s, []) = (.ok sql, t)) :
    Protocol request sql t.2.reverse := by
  rw [compile_eq] at h
  obtain ⟨baseSql, _, hbase, h⟩ := Calling.run_bind_ok.1 h
  obtain ⟨s₁, -, rfl⟩ := Compiler.run_recorded_ok hbase
  constructor
  · intro hnone
    have hempty : (projectedConfig request).columnConfigs = [] := by
      apply List.eq_nil_iff_forall_not_mem.2
      intro c hc
      obtain ⟨hmem, hproj⟩ := mem_projectedConfig.1 hc
      exact hnone c hmem hproj
    rw [resolveProjected, if_pos (by rw [hempty]; rfl)] at h
    cases h
    exact ⟨_, rfl, rfl⟩
  · rintro ⟨c, hmem, hproj⟩ hscalar
    have hne : (projectedConfig request).columnConfigs ≠ [] :=
      List.ne_nil_of_mem (mem_projectedConfig.2 ⟨hmem, hproj⟩)
    have hflat : ¬ (projectedConfig request).hasArrayColumns = true := by
      intro harray
      obtain ⟨c, hc, harray⟩ := List.any_eq_true.1 harray
      obtain ⟨hmem, hproj⟩ := mem_projectedConfig.1 hc
      rw [hscalar c hmem hproj] at harray
      cases harray
    rw [resolveProjected_scalars hne hflat] at h
    obtain ⟨a, inner, hlog, hanswer, hsql⟩ := log_resolveScalars h
    exact ⟨_, a, inner, by rw [hlog]; rfl, hanswer, hsql⟩
  · rintro ⟨c, hmem, hproj, harray⟩
    have hc := mem_projectedConfig.2 ⟨hmem, hproj⟩
    have hany : (projectedConfig request).hasArrayColumns = true :=
      List.any_eq_true.2 ⟨c, hc, harray⟩
    rw [resolveProjected_arrays (List.ne_nil_of_mem hc) hany] at h
    obtain ⟨a₂, a₃, a₄, a₅, hlog, hanswer⟩ := log_resolveArrays h
    exact ⟨_, a₂, a₃, a₄, a₅, by rw [hlog]; rfl, hanswer⟩

/-- Resolution makes its calls one after another and stops at the first one that fails. -/
theorem compile_calls_in_turn (compiler : Compiler σ) (style : KeyStyle) (request : Request)
    (s : σ) :
    ∃ result t made,
      (compile compiler style request).run s = (result, t) ∧
      (compile compiler.recorded style request).run (s, []) = (result, (t, made.reverse)) ∧
      Answers compiler s made t ∧ FailsLast result made ∧
      ∀ sql, result = .ok sql → Protocol request sql made := by
  obtain ⟨made, hanswers, hlast, hrun⟩ := follows_compile compiler style request s
  rcases hresult : (compile compiler style request).run s with ⟨result, t⟩
  rw [hresult] at hanswers hlast hrun
  have hrecorded := hrun []
  rw [List.append_nil] at hrecorded
  refine ⟨result, t, made, rfl, hrecorded, hanswers, hlast, ?_⟩
  rintro sql rfl
  simpa using protocol_of_run hrecorded

example : (((compile (Compiler.always "SELECT 1").recorded .underscore ordersRequest).run
    ((), [])).2.2.length) = 5 := by decide +kernel

example : (((compile ((Compiler.always "SELECT 1").failingAt (some 3) .missingRowId).recorded
    .underscore ordersRequest).run ((0, ()), [])).2.2.length) = 4 := by decide +kernel

end Resolution
end SemanticLayer
