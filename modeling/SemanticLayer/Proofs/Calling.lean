import Mathlib.Data.List.Forall2
import Mathlib.Data.List.Perm.Basic
import SemanticLayer.Resolution.Compiler

/-!
# SemanticLayer.Proofs.Calling

Opening computations step by step: a sequence of steps succeeds if and only if each of its steps
does, and a list is mapped to results if and only if each of its elements is. `run_recorded_sql_ok`
says what a recorded call of the SQL compiler leaves behind.
-/

namespace SemanticLayer

/-! ## Results -/

theorem bind_eq_ok {ε α β : Type} {x : Except ε α} {f : α → Except ε β} {b : β} :
    (x >>= f) = .ok b ↔ ∃ a, x = .ok a ∧ f a = .ok b := by
  cases x with
  | error e => simp [bind, Except.bind]
  | ok a => simp [bind, Except.bind]

theorem map_eq_ok {ε α β : Type} {x : Except ε α} {f : α → β} {b : β} :
    x.map f = .ok b ↔ ∃ a, x = .ok a ∧ f a = b := by
  cases x with
  | error e => simp [Except.map]
  | ok a => simp [Except.map]

theorem exists_of_isOk {ε α : Type} {x : Except ε α} (h : x.isOk = true) : ∃ a, x = .ok a := by
  cases x with
  | error e => cases h
  | ok a => exact ⟨a, rfl⟩

theorem eq_ok_of_toOption {ε α : Type} {x : Except ε α} {a : α} (h : x.toOption = some a) :
    x = .ok a := by
  cases x with
  | error e => cases h
  | ok b =>
    cases h
    rfl

theorem mapM_eq_ok {ε α β : Type} {f : α → Except ε β} {xs : List α} {ys : List β} :
    xs.mapM f = .ok ys ↔ xs.map f = ys.map .ok := by
  induction xs generalizing ys with
  | nil => cases ys <;> simp [pure, Except.pure]
  | cons x rest ih =>
    rw [List.mapM_cons, bind_eq_ok]
    constructor
    · rintro ⟨y, hy, h⟩
      obtain ⟨zs, hzs, h⟩ := bind_eq_ok.1 h
      cases h
      simp [hy, ih.1 hzs]
    · intro h
      cases ys with
      | nil => simp at h
      | cons y zs =>
        simp only [List.map_cons, List.cons.injEq] at h
        exact ⟨y, h.1, bind_eq_ok.2 ⟨zs, ih.2 h.2, rfl⟩⟩

theorem mapM_congr {ε α β : Type} {f g : α → Except ε β} {xs : List α}
    (h : ∀ x ∈ xs, f x = g x) : xs.mapM f = xs.mapM g := by
  induction xs with
  | nil => rfl
  | cons x rest ih =>
    rw [List.mapM_cons, List.mapM_cons, h x List.mem_cons_self,
      ih fun x hx => h x (List.mem_cons_of_mem _ hx)]

theorem exists_of_mapM_ok {ε α β : Type} {f : α → Except ε β} {xs : List α} {ys : List β}
    (h : xs.mapM f = .ok ys) {x : α} (hx : x ∈ xs) : ∃ y ∈ ys, f x = .ok y := by
  have hmem : f x ∈ ys.map .ok := mapM_eq_ok.1 h ▸ List.mem_map_of_mem hx
  obtain ⟨y, hy, he⟩ := List.mem_map.1 hmem
  exact ⟨y, hy, he.symm⟩

theorem exists_of_mem_mapM_ok {ε α β : Type} {f : α → Except ε β} {xs : List α} {ys : List β}
    (h : xs.mapM f = .ok ys) {y : β} (hy : y ∈ ys) : ∃ x ∈ xs, f x = .ok y := by
  have hmem : Except.ok y ∈ xs.map f := mapM_eq_ok.1 h ▸ List.mem_map_of_mem hy
  exact List.mem_map.1 hmem

theorem exists_mapM_ok {ε α β : Type} {f : α → Except ε β} {xs : List α}
    (h : ∀ x ∈ xs, ∃ y, f x = .ok y) : ∃ ys, xs.mapM f = .ok ys := by
  induction xs with
  | nil => exact ⟨[], rfl⟩
  | cons x rest ih =>
    obtain ⟨y, hy⟩ := h x List.mem_cons_self
    obtain ⟨ys, hys⟩ := ih fun x hx => h x (List.mem_cons_of_mem _ hx)
    exact ⟨y :: ys, mapM_eq_ok.2 (by simp [hy, mapM_eq_ok.1 hys])⟩

theorem exists_mapM_ok_iff {ε α β : Type} {f : α → Except ε β} {xs : List α} :
    (∃ ys, xs.mapM f = .ok ys) ↔ ∀ x ∈ xs, ∃ y, f x = .ok y := by
  constructor
  · rintro ⟨ys, h⟩ x hx
    obtain ⟨y, _, hy⟩ := exists_of_mapM_ok h hx
    exact ⟨y, hy⟩
  · exact exists_mapM_ok

theorem length_of_mapM_ok {ε α β : Type} {f : α → Except ε β} {xs : List α} {ys : List β}
    (h : xs.mapM f = .ok ys) : ys.length = xs.length := by
  simpa using (congrArg List.length (mapM_eq_ok.1 h)).symm

theorem getElem?_of_mapM_ok {ε α β : Type} {f : α → Except ε β} {xs : List α} {ys : List β}
    (h : xs.mapM f = .ok ys) {i : Nat} {x : α} (hx : xs[i]? = some x) :
    ∃ y, ys[i]? = some y ∧ f x = .ok y := by
  have hi := congrArg (·[i]?) (mapM_eq_ok.1 h)
  simp only [List.getElem?_map, hx, Option.map_some] at hi
  obtain ⟨y, hy, he⟩ := Option.map_eq_some_iff.1 hi.symm
  exact ⟨y, hy, he.symm⟩

/-- What is observed of each result is known from the element it came from. -/
theorem map_of_mapM_ok {ε α β γ : Type} {f : α → Except ε β} {g : β → γ} {k : α → γ}
    {xs : List α} {ys : List β} (h : xs.mapM f = .ok ys)
    (hf : ∀ x ∈ xs, ∀ y, f x = .ok y → g y = k x) : ys.map g = xs.map k := by
  induction xs generalizing ys with
  | nil =>
    cases h
    rfl
  | cons x rest ih =>
    rw [List.mapM_cons] at h
    obtain ⟨y, hy, h⟩ := bind_eq_ok.1 h
    obtain ⟨zs, hzs, h⟩ := bind_eq_ok.1 h
    cases h
    rw [List.map_cons, List.map_cons, hf x List.mem_cons_self y hy,
      ih hzs fun x hx => hf x (List.mem_cons_of_mem _ hx)]

/-- Elements can be left out before they are mapped, or their results afterwards. -/
theorem filter_of_mapM_ok {ε α β : Type} {f : α → Except ε β} {p : α → Bool} {k : β → Bool}
    {xs : List α} {ys : List β} (h : xs.mapM f = .ok ys)
    (hf : ∀ x ∈ xs, ∀ y, f x = .ok y → k y = p x) :
    (xs.filter p).mapM f = .ok (ys.filter k) := by
  induction xs generalizing ys with
  | nil =>
    cases h
    rfl
  | cons x rest ih =>
    rw [List.mapM_cons] at h
    obtain ⟨y, hy, h⟩ := bind_eq_ok.1 h
    obtain ⟨zs, hzs, h⟩ := bind_eq_ok.1 h
    cases h
    have hrest := ih hzs fun x hx => hf x (List.mem_cons_of_mem _ hx)
    rw [List.filter_cons, List.filter_cons, hf x List.mem_cons_self y hy]
    split
    · rw [mapM_eq_ok, List.map_cons, List.map_cons, hy, mapM_eq_ok.1 hrest]
    · exact hrest

/-- The first result with a property comes from the first element that has it. -/
theorem find?_of_mapM_ok {ε α β : Type} {f : α → Except ε β} {p : α → Bool} {k : β → Bool}
    {xs : List α} {ys : List β} (h : xs.mapM f = .ok ys)
    (hf : ∀ x ∈ xs, ∀ y, f x = .ok y → k y = p x) {x : α} (hx : xs.find? p = some x) :
    ∃ y, ys.find? k = some y ∧ f x = .ok y := by
  rw [← List.head?_filter, List.head?_eq_getElem?] at hx
  obtain ⟨y, hy, hfx⟩ := getElem?_of_mapM_ok (filter_of_mapM_ok h hf) hx
  refine ⟨y, ?_, hfx⟩
  rw [← List.head?_filter, List.head?_eq_getElem?, hy]

theorem reverse_of_mapM_ok {ε α β : Type} {f : α → Except ε β} {xs : List α} {ys : List β}
    (h : xs.mapM f = .ok ys) : xs.reverse.mapM f = .ok ys.reverse := by
  rw [mapM_eq_ok, List.map_reverse, List.map_reverse, mapM_eq_ok.1 h]

/-- One function gives the results of another one, where a condition holds. -/
theorem mapM_eq_ok_iff_of_restrict {ε α β : Type} {f g : α → Except ε β} {p : α → Prop}
    {xs : List α} {ys : List β} (h : ∀ x ∈ xs, ∀ y, g x = .ok y ↔ f x = .ok y ∧ p x) :
    xs.mapM g = .ok ys ↔ xs.mapM f = .ok ys ∧ ∀ x ∈ xs, p x := by
  induction xs generalizing ys with
  | nil => simp
  | cons x rest ih =>
    rw [List.mapM_cons, List.mapM_cons, bind_eq_ok, bind_eq_ok]
    simp only [bind_eq_ok, h x List.mem_cons_self, ih fun x hx => h x (List.mem_cons_of_mem _ hx),
      List.forall_mem_cons]
    constructor
    · rintro ⟨y, ⟨hy, hp⟩, zs, ⟨hzs, hall⟩, hys⟩
      exact ⟨⟨y, hy, zs, hzs, hys⟩, hp, hall⟩
    · rintro ⟨⟨y, hy, zs, hzs, hys⟩, hp, hall⟩
      exact ⟨y, ⟨hy, hp⟩, zs, ⟨hzs, hall⟩, hys⟩

theorem forall₂_of_mapM_ok {ε α β : Type} {f : α → Except ε β} {R : β → α → Prop} {xs : List α}
    {ys : List β} (h : xs.mapM f = .ok ys) (hf : ∀ x ∈ xs, ∀ y, f x = .ok y → R y x) :
    List.Forall₂ R ys xs := by
  induction xs generalizing ys with
  | nil =>
    cases h
    exact .nil
  | cons x rest ih =>
    rw [List.mapM_cons] at h
    obtain ⟨y, hy, h⟩ := bind_eq_ok.1 h
    obtain ⟨zs, hzs, h⟩ := bind_eq_ok.1 h
    cases h
    exact .cons (hf x List.mem_cons_self y hy)
      (ih hzs fun x hx => hf x (List.mem_cons_of_mem _ hx))

/-- Any two results are related exactly if the elements they came from are so. -/
theorem pairwise_of_mapM_ok {ε α β : Type} {f : α → Except ε β} {R : β → β → Prop} {xs : List α}
    {ys : List β} (h : xs.mapM f = .ok ys) :
    ys.Pairwise R ↔ xs.Pairwise fun x x' => ∀ y y', f x = .ok y → f x' = .ok y' → R y y' := by
  have hmap : (xs.map f).Pairwise (fun a b => ∀ y y', a = .ok y → b = .ok y' → R y y') ↔
      ys.Pairwise R := by
    rw [mapM_eq_ok.1 h, List.pairwise_map]
    simp
  rw [← hmap, List.pairwise_map]

/-- Elements in another order are mapped to the same results in another order. -/
theorem exists_mapM_ok_of_perm {ε α β : Type} {f : α → Except ε β} {xs xs' : List α} {ys : List β}
    (hperm : xs.Perm xs') (h : xs.mapM f = .ok ys) :
    ∃ ys', xs'.mapM f = .ok ys' ∧ ys.Perm ys' := by
  obtain ⟨ys', h'⟩ := exists_mapM_ok_iff.2 fun x hx =>
    exists_mapM_ok_iff.1 ⟨ys, h⟩ x (hperm.mem_iff.2 hx)
  refine ⟨ys', h', ?_⟩
  have hmap := hperm.map f
  rw [mapM_eq_ok.1 h, mapM_eq_ok.1 h'] at hmap
  exact (List.map_perm_map_iff fun _ _ => Except.ok.inj).1 hmap

theorem flatMap_of_mapM_ok {ε α β γ : Type} {f : α → Except ε (List β)} {g : β → γ}
    {k : α → List γ} {xs : List α} {ys : List (List β)} (h : xs.mapM f = .ok ys)
    (hf : ∀ x ∈ xs, ∀ y, f x = .ok y → y.map g = k x) : ys.flatten.map g = xs.flatMap k := by
  rw [List.map_flatten, map_of_mapM_ok h hf, List.flatMap]

/-! ## Runs -/

namespace Calling

variable {σ α β : Type}

@[simp] theorem run_ofExcept (r : Except CompileError α) (s : σ) :
    (ofExcept r : Calling σ α).run s = (r, s) := rfl

theorem run_bind (x : Calling σ α) (f : α → Calling σ β) (s : σ) :
    (x >>= f).run s =
      match x.run s with
      | (.ok a, s') => (f a).run s'
      | (.error e, s') => (.error e, s') := by
  have hrun : (x >>= f).run s = (ExceptT.bindCont f (x.run s).1) (x.run s).2 := rfl
  rw [hrun]
  rcases x.run s with ⟨_ | a, s'⟩ <;> rfl

theorem run_bind_of_ok {x : Calling σ α} {s s₁ : σ} {a : α} (h : x.run s = (.ok a, s₁))
    (f : α → Calling σ β) : (x >>= f).run s = (f a).run s₁ := by
  rw [run_bind, h]

theorem run_bind_of_error {x : Calling σ α} {s s₁ : σ} {e : CompileError}
    (h : x.run s = (.error e, s₁)) (f : α → Calling σ β) :
    (x >>= f).run s = (.error e, s₁) := by
  rw [run_bind, h]

theorem run_bind_ok {x : Calling σ α} {f : α → Calling σ β} {s s' : σ} {b : β} :
    (x >>= f).run s = (.ok b, s') ↔
      ∃ a s₁, x.run s = (.ok a, s₁) ∧ (f a).run s₁ = (.ok b, s') := by
  constructor
  · intro h
    rcases hx : x.run s with ⟨e | a, s₁⟩
    · rw [run_bind_of_error hx] at h
      cases h
    · rw [run_bind_of_ok hx] at h
      exact ⟨a, s₁, rfl, h⟩
  · rintro ⟨a, s₁, hx, h⟩
    rw [run_bind_of_ok hx, h]

theorem run_ofExcept_bind_ok {r : Except CompileError α} {f : α → Calling σ β} {s s' : σ} {b : β} :
    (ofExcept r >>= f).run s = (.ok b, s') ↔ ∃ a, r = .ok a ∧ (f a).run s = (.ok b, s') := by
  cases r with
  | error e =>
    rw [run_bind_of_error (run_ofExcept _ s)]
    constructor
    · intro h
      cases h
    · rintro ⟨a, h, _⟩
      cases h
  | ok a =>
    rw [run_bind_of_ok (run_ofExcept _ s)]
    simp

/-- A run that is known to succeed ends with some answer. -/
theorem exists_run_ok {x : Calling σ α} {s : σ} (h : (x.run s).1.isOk = true) :
    ∃ a t, x.run s = (.ok a, t) := by
  rcases hx : x.run s with ⟨e | a, t⟩
  · rw [hx] at h
    cases h
  · exact ⟨a, t, rfl⟩

end Calling

namespace Compiler

theorem run_sql {σ : Type} (style : KeyStyle) (call : Call) (s : σ) :
    (Compiler.sql style call).run s = (compileQuery style call.query call.schemas, s) := rfl

theorem run_recorded {σ : Type} (compiler : Compiler σ) (call : Call) (s : σ)
    (log : List Answered) :
    (compiler.recorded call).run (s, log) =
      (((compiler call).run s).1,
        (((compiler call).run s).2, ⟨call, ((compiler call).run s).1⟩ :: log)) := rfl

theorem run_recorded_ok {σ : Type} {compiler : Compiler σ} {call : Call} {s : σ}
    {log : List Answered} {sql : String} {t : σ × List Answered}
    (h : (compiler.recorded call).run (s, log) = (.ok sql, t)) :
    ∃ s₁, (compiler call).run s = (.ok sql, s₁) ∧ t = (s₁, ⟨call, .ok sql⟩ :: log) := by
  rw [run_recorded] at h
  rcases hrun : (compiler call).run s with ⟨answer, s₁⟩
  rw [hrun] at h
  cases h
  exact ⟨s₁, rfl, rfl⟩

end Compiler

theorem compileQuery_eq_ok {style : KeyStyle} {q : Query} {schemas : List TableSchema}
    {sql : String} :
    compileQuery style q schemas = .ok sql ↔
      ∃ statement, Select.ofQuery style q schemas = .ok statement ∧ sql = statement.render := by
  rw [compileQuery]
  cases Select.ofQuery style q schemas with
  | ok statement => simp [eq_comm]
  | error e => simp

/-- A call of the SQL compiler that succeeds is put on record with the SQL of its statement. -/
theorem Compiler.run_recorded_sql_ok {σ : Type} {style : KeyStyle} {call : Call} {s : σ}
    {log : List Answered} {sql : String} {t : σ × List Answered} :
    ((Compiler.sql style).recorded call).run (s, log) = (.ok sql, t) ↔
      ∃ statement, Select.ofQuery style call.query call.schemas = .ok statement ∧
        sql = statement.render ∧ t = (s, ⟨call, .ok sql⟩ :: log) := by
  rw [run_recorded, run_sql, Prod.mk.injEq, compileQuery_eq_ok]
  constructor
  · rintro ⟨⟨statement, hs, rfl⟩, rfl⟩
    refine ⟨statement, hs, rfl, ?_⟩
    rw [compileQuery_eq_ok.2 ⟨statement, hs, rfl⟩]
  · rintro ⟨statement, hs, rfl, rfl⟩
    refine ⟨⟨statement, hs, rfl⟩, ?_⟩
    rw [compileQuery_eq_ok.2 ⟨statement, hs, rfl⟩]

end SemanticLayer
