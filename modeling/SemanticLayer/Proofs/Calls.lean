import SemanticLayer.Proofs.Runs

/-!
# SemanticLayer.Proofs.Calls

The calls that resolution makes, whether it succeeds or not.

`Follows` compares a computation over a recorded compiler with the same computation over the
compiler itself: recording changes nothing, the record holds the calls in turn, and a call that
fails is the last one and decides the result. Every phase has this property, because it is kept when
computations are put one after another. So the calls of a sequence are those of its first step,
followed by those of the rest if the first step succeeds. `compile_call_succ` and
`resolveArrays_call_succ` step over a call in this way, `resolveArrays_call` and
`resolveScalars_call` find the one that joins the lookup tables.
-/

namespace SemanticLayer

/-- The compiler, called with each of the calls in turn, gives their answers and goes from the state
`s` to the state `t`. -/
inductive Compiler.Answers {σ : Type} (compiler : Compiler σ) :
    σ → List Compiler.Answered → σ → Prop where
  | nil (s : σ) : Answers compiler s [] s
  | cons {s s₁ t : σ} {a : Answered} {rest : List Answered} :
    (compiler a.call).run s = (a.answer, s₁) → Answers compiler s₁ rest t →
      Answers compiler s (a :: rest) t

theorem Compiler.Answers.append {σ : Type} {compiler : Compiler σ} {s t u : σ}
    {first second : List Answered} (h₁ : Answers compiler s first t)
    (h₂ : Answers compiler t second u) : Answers compiler s (first ++ second) u := by
  induction h₁ with
  | nil => exact h₂
  | cons ha _ ih => exact .cons ha (ih h₂)

namespace Calling

open Compiler (Answered Answers)

variable {σ α β : Type}

/-- The calls that a computation makes, in their order. -/
def calls (x : Calling (σ × List Answered) α) (s : σ) : List Answered :=
  (x.run (s, [])).2.2.reverse

/-- A call that fails is the last one, and its error is the result. -/
def FailsLast (result : Except CompileError α) (made : List Answered) : Prop :=
  ∀ i a e, made[i]? = some a → a.answer = .error e → result = .error e ∧ i + 1 = made.length

/-- `x` is `y` with a recorded compiler. -/
def Follows (compiler : Compiler σ) (x : Calling (σ × List Answered) α) (y : Calling σ α) : Prop :=
  ∀ s, ∃ made, Answers compiler s made (y.run s).2 ∧ FailsLast (y.run s).1 made ∧
    ∀ log, x.run (s, log) = ((y.run s).1, ((y.run s).2, made.reverse ++ log))

namespace Follows

variable {compiler : Compiler σ}

theorem ofExcept (r : Except CompileError α) :
    Follows compiler (Calling.ofExcept r) (Calling.ofExcept r) :=
  fun s => ⟨[], .nil s, fun _ _ _ h => by simp at h, fun _ => rfl⟩

theorem pure (a : α) : Follows compiler (Pure.pure a) (Pure.pure a) := ofExcept (.ok a)

theorem throw (e : CompileError) :
    Follows compiler (throw e : Calling (σ × List Answered) α) (throw e) := ofExcept (.error e)

theorem call (compiler : Compiler σ) (call : Call) :
    Follows compiler (compiler.recorded call) (compiler call) := by
  intro s
  refine ⟨[⟨call, ((compiler call).run s).1⟩], .cons rfl (.nil _), ?_, fun _ => rfl⟩
  intro i a e ha he
  obtain ⟨rfl, rfl⟩ : i = 0 ∧ a = ⟨call, ((compiler call).run s).1⟩ := by
    rw [List.getElem?_singleton] at ha
    split at ha
    · exact ⟨‹_›, (Option.some.inj ha).symm⟩
    · cases ha
  exact ⟨he, rfl⟩

/-- If the first of two computations succeeds, then none of its calls has failed. -/
theorem bind {x : Calling (σ × List Answered) α} {y : Calling σ α}
    {f : α → Calling (σ × List Answered) β} {g : α → Calling σ β} (hx : Follows compiler x y)
    (hf : ∀ a, Follows compiler (f a) (g a)) : Follows compiler (x >>= f) (y >>= g) := by
  intro s
  obtain ⟨first, hfirst, hlast, hrun⟩ := hx s
  rcases hy : y.run s with ⟨e | a, s₁⟩
  · rw [hy] at hfirst hlast hrun
    rw [run_bind_of_error hy]
    refine ⟨first, hfirst, ?_, fun log => run_bind_of_error (hrun log) f⟩
    intro i a e' ha he
    obtain ⟨hresult, hi⟩ := hlast i a e' ha he
    cases hresult
    exact ⟨rfl, hi⟩
  · rw [hy] at hfirst hlast hrun
    rw [run_bind_of_ok hy]
    obtain ⟨second, hsecond, hlast₂, hrun₂⟩ := hf a s₁
    refine ⟨first ++ second, hfirst.append hsecond, ?_, ?_⟩
    · intro i b e hb he
      rcases Nat.lt_or_ge i first.length with hi | hi
      · rw [List.getElem?_append_left hi] at hb
        cases (hlast i b e hb he).1
      · rw [List.getElem?_append_right hi] at hb
        obtain ⟨hresult, hlength⟩ := hlast₂ _ b e hb he
        rw [List.length_append]
        exact ⟨hresult, by omega⟩
    · intro log
      rw [run_bind_of_ok (hrun log), hrun₂, List.reverse_append, List.append_assoc]

end Follows

/-- A computation that adds to the record of calls and never reads it. -/
def Records (x : Calling (σ × List Answered) α) : Prop :=
  ∀ s log, x.run (s, log) =
    ((x.run (s, [])).1, ((x.run (s, [])).2.1, (x.run (s, [])).2.2 ++ log))

theorem Follows.records {compiler : Compiler σ} {x : Calling (σ × List Answered) α}
    {y : Calling σ α} (h : Follows compiler x y) : Records x := by
  intro s log
  obtain ⟨made, -, -, hrun⟩ := h s
  rw [hrun log, hrun [], List.append_nil]

/-- What is on record stays there. -/
theorem Records.log_of_run {x : Calling (σ × List Answered) α} (hx : Records x)
    {s t : σ × List Answered} {r : Except CompileError α} (h : x.run s = (r, t)) :
    ∃ later, t.2 = later ++ s.2 := by
  have hrun := hx s.1 s.2
  rw [h] at hrun
  cases hrun
  exact ⟨_, rfl⟩

/-- The first call of a sequence that starts with a call. -/
theorem calls_bind_zero {compiler : Compiler σ} {call : Call}
    {f : String → Calling (σ × List Answered) β} (hf : ∀ sql, Records (f sql)) {s : σ}
    {a : Answered} (h : (calls (compiler.recorded call >>= f) s)[0]? = some a) :
    a.call = call := by
  have hrun := Compiler.run_recorded compiler call s []
  rcases hanswer : (compiler call).run s with ⟨e | sql, s₁⟩
  · rw [hanswer] at hrun
    rw [calls, run_bind_of_error hrun] at h
    cases h
    rfl
  · rw [hanswer] at hrun
    rw [calls, run_bind_of_ok hrun, hf sql s₁ _] at h
    simp only [List.reverse_append, List.reverse_cons, List.reverse_nil, List.nil_append,
      List.singleton_append, List.getElem?_cons_zero, Option.some.injEq] at h
    rw [← h]

/-- A later call of a sequence is a call of its rest. -/
theorem calls_bind_succ {compiler : Compiler σ} {call : Call}
    {f : String → Calling (σ × List Answered) β} (hf : ∀ sql, Records (f sql)) {s : σ} {k : Nat}
    {a : Answered} (h : (calls (compiler.recorded call >>= f) s)[k + 1]? = some a) :
    ∃ sql s₁, (compiler call).run s = (.ok sql, s₁) ∧ (calls (f sql) s₁)[k]? = some a := by
  have hrun := Compiler.run_recorded compiler call s []
  rcases hanswer : (compiler call).run s with ⟨e | sql, s₁⟩
  · rw [hanswer] at hrun
    rw [calls, run_bind_of_error hrun] at h
    simp at h
  · rw [hanswer] at hrun
    rw [calls, run_bind_of_ok hrun, hf sql s₁ _] at h
    refine ⟨sql, s₁, rfl, ?_⟩
    simpa [calls] using h

theorem calls_ofExcept_bind {r : Except CompileError α}
    {f : α → Calling (σ × List Answered) β} {s : σ} {k : Nat} {a : Answered}
    (h : (calls (ofExcept r >>= f) s)[k]? = some a) :
    ∃ v, r = .ok v ∧ (calls (f v) s)[k]? = some a := by
  cases r with
  | error e =>
    rw [calls, run_bind_of_error (run_ofExcept _ _)] at h
    simp at h
  | ok v => exact ⟨v, rfl, h⟩

end Calling

namespace Resolution

open Calling (Follows calls)
open Compiler (Answered)

variable {σ : Type} (compiler : Compiler σ) {style : KeyStyle} {request : Request}
  {config : ResolutionConfig}

/-! ## The phases make their calls in turn -/

theorem follows_unnest (base : TableSchema) (config : ResolutionConfig)
    (context : Option ContextParams) :
    Follows compiler (unnest compiler.recorded base config context)
      (unnest compiler base config context) :=
  .bind (.call compiler _) fun _ => .pure _

theorem follows_resolve (base : TableSchema) (config : ResolutionConfig)
    (projections : List String) (context : Option ContextParams) :
    Follows compiler (resolve compiler.recorded base config projections context)
      (resolve compiler base config projections context) :=
  .bind (.ofExcept _) fun _ => .bind (.call compiler _) fun _ =>
    .bind (.ofExcept _) fun _ => .pure _

theorem follows_aggregate (resolved : TableSchema) (config : ResolutionConfig)
    (context : Option ContextParams) :
    Follows compiler (aggregate compiler.recorded resolved config context)
      (aggregate compiler resolved config context) := by
  rw [aggregate, aggregate]
  split
  · exact .throw _
  · exact .bind (.call compiler _) fun _ => .pure _

theorem follows_restoreAliases (aggregated : TableSchema) (schemas : List TableSchema)
    (config : ResolutionConfig) (context : Option ContextParams) :
    Follows compiler (restoreAliases compiler.recorded aggregated schemas config context)
      (restoreAliases compiler aggregated schemas config context) :=
  .bind (.ofExcept _) fun _ => .call compiler _

/-- What array resolution does once the lookup tables are joined. -/
def regroup (compiler : Compiler σ) (request : Request) (config : ResolutionConfig)
    (resolved : TableSchema) : Calling σ String := do
  let aggregated ← aggregate compiler resolved config.safeKeyed request.context
  restoreAliases compiler aggregated request.tableSchemas config.safeKeyed request.context

theorem follows_regroup (request : Request) (config : ResolutionConfig) (resolved : TableSchema) :
    Follows compiler (regroup compiler.recorded request config resolved)
      (regroup compiler request config resolved) :=
  .bind (follows_aggregate compiler _ _ _) fun _ => follows_restoreAliases compiler _ _ _ _

theorem follows_resolveArrays (style : KeyStyle) (request : Request) (baseSql : String)
    (config : ResolutionConfig) :
    Follows compiler (resolveArrays compiler.recorded style request baseSql config)
      (resolveArrays compiler style request baseSql config) :=
  .bind (.ofExcept _) fun _ => .bind (follows_unnest compiler _ _ _) fun _ =>
    .bind (follows_resolve compiler _ _ _ _) (follows_regroup compiler request config)

theorem follows_resolveScalars (style : KeyStyle) (request : Request) (baseSql : String)
    (config : ResolutionConfig) :
    Follows compiler (resolveScalars compiler.recorded style request baseSql config)
      (resolveScalars compiler style request baseSql config) :=
  .bind (.ofExcept _) fun _ => .bind (.ofExcept _) fun _ => .bind (.ofExcept _) fun _ =>
    .bind (.call compiler _) fun _ => .pure _

theorem follows_resolveProjected (style : KeyStyle) (request : Request) (baseSql : String) :
    Follows compiler (resolveProjected compiler.recorded style request baseSql)
      (resolveProjected compiler style request baseSql) := by
  rw [resolveProjected, resolveProjected]
  split
  · exact .pure _
  · split
    · exact follows_resolveArrays compiler _ _ _ _
    · exact follows_resolveScalars compiler _ _ _ _

theorem follows_compile (style : KeyStyle) (request : Request) :
    Follows compiler (compile compiler.recorded style request)
      (compile compiler style request) :=
  .bind (.call compiler _) fun _ => follows_resolveProjected compiler style request _

/-! ## Later calls -/

variable {compiler}

/-- The calls after the first one are those of the resolution. -/
theorem compile_call_succ {s : σ} {k : Nat} {a : Answered}
    (h : (calls (compile compiler.recorded style request) s)[k + 1]? = some a) :
    ∃ baseSql s₁, (compiler (baseCall request)).run s = (.ok baseSql, s₁) ∧
      (projectedConfig request).columnConfigs ≠ [] ∧
      (calls (resolveProjected compiler.recorded style request baseSql) s₁)[k]? = some a := by
  rw [compile_eq] at h
  obtain ⟨baseSql, s₁, hbase, h⟩ := Calling.calls_bind_succ
    (fun sql => (follows_resolveProjected compiler style request sql).records) h
  refine ⟨baseSql, s₁, hbase, ?_, h⟩
  intro hempty
  rw [resolveProjected, if_pos (by rw [hempty]; rfl)] at h
  cases h

/-- The calls of array resolution after its first one are made over the unnested base table. -/
theorem resolveArrays_call_succ {baseSql : String} {s : σ} {k : Nat} {a : Answered}
    (h : (calls (resolveArrays compiler.recorded style request baseSql config) s)[k + 1]? =
      some a) :
    ∃ base sql s₁, preparedBase style baseSql request config request.projections = .ok base ∧
      (unnest compiler base config.safeKeyed request.context).run s =
        (.ok (wrapperSchema sql base), s₁) ∧
      (calls (resolve compiler.recorded (wrapperSchema sql base) config.safeKeyed
        (request.projections ++ [rowIdName]) request.context >>=
          regroup compiler.recorded request config) s₁)[k]? = some a := by
  rw [resolveArrays] at h
  obtain ⟨base, hbase, h⟩ := Calling.calls_ofExcept_bind h
  simp only [unnest, bind_assoc, pure_bind] at h
  obtain ⟨sql, s₁, hcall, h⟩ := Calling.calls_bind_succ (fun _ =>
    (Follows.bind (follows_resolve compiler _ _ _ _) (follows_regroup compiler _ _)).records) h
  exact ⟨base, sql, s₁, hbase, Calling.run_bind_ok.2 ⟨sql, s₁, hcall, rfl⟩, h⟩

/-! ## The call that joins the lookup tables -/

/-- The second call of array resolution joins the unnested base table with the lookup tables. -/
theorem resolveArrays_call {baseSql : String} {s : σ} {a : Answered}
    (h : (calls (resolveArrays compiler.recorded style request baseSql config) s)[1]? = some a) :
    ∃ base sql lookups,
      preparedBase style baseSql request config request.projections = .ok base ∧
      lookupSchemas config.safeKeyed = .ok lookups ∧
      a.call = resolveCall (wrapperSchema sql base) lookups config.safeKeyed
        ((request.projections ++ [rowIdName]).map Member.safeKey) request.context := by
  obtain ⟨base, sql, s₁, hbase, -, h⟩ := resolveArrays_call_succ h
  simp only [resolve, bind_assoc, pure_bind] at h
  obtain ⟨lookups, hlookups, h⟩ := Calling.calls_ofExcept_bind h
  refine ⟨base, sql, lookups, hbase, hlookups, Calling.calls_bind_zero (fun _ => ?_) h⟩
  exact (Follows.bind (.ofExcept _) fun _ => follows_regroup compiler _ _ _).records

/-- The only call of scalar resolution joins the base table with the lookup tables. -/
theorem resolveScalars_call {baseSql : String} {s : σ} {a : Answered}
    (h : (calls (resolveScalars compiler.recorded style request baseSql config) s)[0]? = some a) :
    ∃ base aliases lookups,
      preparedBase style baseSql request config request.query.members = .ok base ∧
      lookupSchemas config = .ok lookups ∧
      a.call = scalarCall base (lookups.map (applyAliases aliases)) config request.projections
        request.context := by
  rw [resolveScalars] at h
  obtain ⟨base, hbase, h⟩ := Calling.calls_ofExcept_bind h
  obtain ⟨aliases, -, h⟩ := Calling.calls_ofExcept_bind h
  obtain ⟨lookups, hlookups, h⟩ := Calling.calls_ofExcept_bind h
  exact ⟨base, aliases, lookups, hbase, hlookups,
    Calling.calls_bind_zero (fun _ _ _ => rfl) h⟩

end Resolution
end SemanticLayer
