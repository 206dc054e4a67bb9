import SemanticLayer.Proofs.Statement
import SemanticLayer.Proofs.FilterMeaning

/-!
# SemanticLayer.Proofs.Acceptance

Which queries are accepted.

A filter is accepted exactly if each predicate in it is about a known member and has the values that
its operator needs (`Condition.exists_ofFilter_iff`). A query is accepted exactly if it selects
something, all its members are known, its filters are accepted and its tables can be joined
(`Select.exists_ofUsed_iff`; `Select.compileQuery_accepts_iff` spells the conditions out).
-/

namespace SemanticLayer

/-! ## Filters -/

/-- The values that an operator needs on a field of the given type. A date range has two ends, and
an array is compared with any number of values. -/
def Operator.takes (operator : Operator) (type : MemberType) (values : List String) : Bool :=
  match operator with
  | .isSet | .notSet => true
  | .inDateRange | .notInDateRange => values.length == 2
  | .equals | .notEquals | .isIn | .notIn => type.isArray || !values.isEmpty
  | .contains | .notContains | .gt | .gte | .lt | .lte => !values.isEmpty

/-- The predicate stands somewhere in the filter. -/
inductive Filter.Asks (m : String) (operator : Operator) (values : List String) :
    Filter → Prop where
  | member : Asks m operator values (.member m operator values)
  | all {filters : List Filter} {f : Filter} :
    f ∈ filters → Asks m operator values f → Asks m operator values (.all filters)
  | any {filters : List Filter} {f : Filter} :
    f ∈ filters → Asks m operator values f → Asks m operator values (.any filters)

namespace Filter

/-- The member is known, and the values are those that the operator needs. -/
def Answerable (schemas : List TableSchema) (m : String) (operator : Operator)
    (values : List String) : Prop :=
  ∃ field, findField schemas m = some field ∧ operator.takes field.type values = true

/-- Each predicate in the filter can be answered. -/
def IsAnswerable (schemas : List TableSchema) (f : Filter) : Prop :=
  ∀ m operator values, f.Asks m operator values → Answerable schemas m operator values

theorem isAnswerable_all {schemas : List TableSchema} {filters : List Filter} :
    (Filter.all filters).IsAnswerable schemas ↔ ∀ f ∈ filters, f.IsAnswerable schemas := by
  constructor
  · intro h f hf m operator values hasks
    exact h m operator values (.all hf hasks)
  · intro h m operator values hasks
    cases hasks with
    | all hf hasks => exact h _ hf m operator values hasks

theorem isAnswerable_any {schemas : List TableSchema} {filters : List Filter} :
    (Filter.any filters).IsAnswerable schemas ↔ ∀ f ∈ filters, f.IsAnswerable schemas := by
  constructor
  · intro h f hf m operator values hasks
    exact h m operator values (.any hf hasks)
  · intro h m operator values hasks
    cases hasks with
    | any hf hasks => exact h _ hf m operator values hasks

theorem isAnswerable_member {schemas : List TableSchema} {m : String} {operator : Operator}
    {values : List String} :
    (Filter.member m operator values).IsAnswerable schemas ↔
      Answerable schemas m operator values := by
  constructor
  · intro h
    exact h m operator values .member
  · intro h m' operator' values' hasks
    cases hasks with
    | member => exact h

theorem mentions_iff_asks {m : String} {f : Filter} :
    f.Mentions m ↔ ∃ operator values, f.Asks m operator values := by
  constructor
  · intro h
    induction h with
    | member operator values => exact ⟨operator, values, .member⟩
    | all hf _ ih =>
      obtain ⟨operator, values, hasks⟩ := ih
      exact ⟨operator, values, .all hf hasks⟩
    | any hf _ ih =>
      obtain ⟨operator, values, hasks⟩ := ih
      exact ⟨operator, values, .any hf hasks⟩
  · rintro ⟨operator, values, h⟩
    induction h with
    | member => exact .member operator values
    | all hf _ ih => exact .all hf ih
    | any hf _ ih => exact .any hf ih

end Filter

namespace Predicate

variable {m : String} {values : List Literal}

theorem exists_comparing_iff {comparison : Comparison} :
    (∃ test, comparing m comparison values = .ok test) ↔ values.isEmpty = false := by
  cases values <;> simp [comparing]

theorem exists_equality_iff {negated : Bool} :
    (∃ test, equality m negated values = .ok test) ↔ values.isEmpty = false := by
  rcases values with _ | ⟨a, _ | ⟨b, rest⟩⟩ <;> simp [equality]

theorem exists_membership_iff {negated : Bool} :
    (∃ test, membership m negated values = .ok test) ↔ values.isEmpty = false := by
  cases values <;> simp [membership]

theorem exists_containment_iff {negated : Bool} {parts : List String} :
    (∃ test, containment m negated parts = .ok test) ↔ parts.isEmpty = false := by
  cases parts <;> simp [containment]

theorem exists_dateRange_iff {negated : Bool} {ends : List String} :
    (∃ test, dateRange m negated ends = .ok test) ↔ ends.length = 2 := by
  rcases ends with _ | ⟨a, _ | ⟨b, _ | ⟨c, rest⟩⟩⟩ <;> simp [dateRange]

theorem exists_testOf_iff {type : MemberType} {operator : Operator} {values : List String} :
    (∃ test, testOf m type operator values = .ok test) ↔ operator.takes type values = true := by
  cases operator with
  | isSet | notSet => simp [testOf, Operator.takes]
  | inDateRange | notInDateRange => simp [testOf, Operator.takes, exists_dateRange_iff]
  | contains | notContains => simp [testOf, Operator.takes, exists_containment_iff]
  | gt | gte | lt | lte => simp [testOf, Operator.takes, exists_comparing_iff]
  | isIn | notIn =>
    by_cases harray : type.isArray = true <;>
      simp [testOf, Operator.takes, exists_membership_iff, harray]
  | equals | notEquals =>
    by_cases harray : type.isArray = true <;>
      simp [testOf, Operator.takes, exists_equality_iff, harray]

theorem exists_ofFilter_iff {field : Field} {operator : Operator} {values : List String} :
    (∃ p, ofFilter m field operator values = .ok p) ↔
      operator.takes field.type values = true := by
  rw [← exists_testOf_iff (m := m), ofFilter]
  cases testOf m field.type operator values <;> simp

end Predicate

namespace Condition

theorem exists_ofFilter_member_iff {schemas : List TableSchema} {m : String} {operator : Operator}
    {values : List String} :
    (∃ c, ofFilter schemas (.member m operator values) = .ok c) ↔
      Filter.Answerable schemas m operator values := by
  rw [Filter.Answerable, ofFilter, lookup]
  cases findField schemas m with
  | none => simp
  | some field =>
    simp only [Option.some.injEq, exists_eq_left', ← Predicate.exists_ofFilter_iff (m := m)]
    cases Predicate.ofFilter m field operator values <;> simp

/-- A filter is accepted if and only if each predicate in it can be answered. -/
theorem exists_ofFilter_iff {schemas : List TableSchema} {f : Filter} :
    (∃ c, ofFilter schemas f = .ok c) ↔ f.IsAnswerable schemas := by
  induction f using Filter.induction with
  | all filters ih =>
    rw [Filter.isAnswerable_all, ← forall₂_congr ih, ← exists_mapM_ok_iff]
    simp [ofFilter_all_eq_ok]
  | any filters ih =>
    rw [Filter.isAnswerable_any, ← forall₂_congr ih, ← exists_mapM_ok_iff]
    simp [ofFilter_any_eq_ok]
  | member m operator values =>
    rw [Filter.isAnswerable_member, exists_ofFilter_member_iff]

end Condition

/-! ## Queries -/

namespace Select

variable {style : KeyStyle} {q : Query} {used : List TableSchema}

/-- What a query has to meet to be accepted over the schemas it uses. -/
structure Acceptable (q : Query) (used : List TableSchema) : Prop where
  source : ∃ chain, sourceOf q used = .ok chain
  selects : q.members ≠ []
  members : ∀ m ∈ q.members, (findField used m).isSome = true
  filters : ∀ f ∈ q.filters, f.IsAnswerable used
  order : ∀ entry ∈ q.order, (findField used entry.member).isSome = true

theorem exists_projections_iff {members : List String} :
    (∃ projections, members.mapM (Projection.ofMember style used) = .ok projections) ↔
      ∀ m ∈ members, (findField used m).isSome = true := by
  rw [exists_mapM_ok_iff]
  apply forall₂_congr
  intro m _
  simp [Projection.ofMember_eq_ok, Option.isSome_iff_exists]

theorem exists_conditionsOf_iff {filters : List Filter} :
    (∃ conditions, conditionsOf used filters = .ok conditions) ↔
      ∀ f ∈ filters, f.IsAnswerable used := by
  rw [conditionsOf, exists_mapM_ok_iff]
  apply forall₂_congr
  intro f _
  rw [← Condition.exists_ofFilter_iff]
  simp [bind_eq_ok, pure, Except.pure]

section

variable {members : List String} {projections : List Projection}

theorem isEmpty_of_mapM_ofMember
    (h : members.mapM (Projection.ofMember style used) = .ok projections) :
    projections.isEmpty = members.isEmpty := by
  have hlength := length_of_mapM_ok h
  cases projections <;> cases members <;> simp at hlength ⊢

theorem findField_of_mapM_ofMember
    (h : members.mapM (Projection.ofMember style used) = .ok projections) {p : Projection}
    (hp : p ∈ projections) : (findField used p.member).isSome = true := by
  obtain ⟨m, _, hm⟩ := exists_of_mem_mapM_ok h hp
  obtain ⟨field, hfield, rfl⟩ := Projection.ofMember_eq_ok.1 hm
  simp [hfield]

/-- A key that is one of the projections asks for nothing that they do not ask for. -/
theorem exists_orderKey_iff {entry : OrderEntry}
    (h : ∀ p ∈ projections, (findField used p.member).isSome = true) :
    (∃ key, orderKey used projections entry = .ok key) ↔
      (findField used entry.member).isSome = true := by
  rw [orderKey, Condition.lookup]
  cases hfind : projections.find? (·.member = entry.member) with
  | some p =>
    have hmember : p.member = entry.member := by simpa using List.find?_some hfind
    simp [← hmember, h p (List.mem_of_find?_eq_some hfind)]
  | none => cases findField used entry.member <;> simp

end

theorem exists_order_iff {dimensions measures : List Projection}
    (hd : q.dimensions.mapM (Projection.ofMember style used) = .ok dimensions)
    (hm : q.measures.mapM (Projection.ofMember style used) = .ok measures) :
    (∃ order, q.order.mapM (orderKey used (dimensions ++ measures)) = .ok order) ↔
      ∀ entry ∈ q.order, (findField used entry.member).isSome = true := by
  rw [exists_mapM_ok_iff]
  apply forall₂_congr
  intro entry _
  apply exists_orderKey_iff
  intro p hp
  rcases List.mem_append.1 hp with hp | hp
  · exact findField_of_mapM_ofMember hd hp
  · exact findField_of_mapM_ofMember hm hp

/-- A query is accepted if and only if it meets all these conditions. -/
theorem exists_ofUsed_iff :
    (∃ statement, ofUsed style q used = .ok statement) ↔ Acceptable q used := by
  constructor
  · rintro ⟨statement, h⟩
    rw [ofUsed] at h
    obtain ⟨source, hsource, h⟩ := bind_eq_ok.1 h
    obtain ⟨dimensions, hd, h⟩ := bind_eq_ok.1 h
    obtain ⟨measures, hm, h⟩ := bind_eq_ok.1 h
    rw [isEmpty_of_mapM_ofMember hd, isEmpty_of_mapM_ofMember hm] at h
    split at h
    · cases h
    rename_i hne
    obtain ⟨conditions, hc, h⟩ := bind_eq_ok.1 h
    obtain ⟨order, ho, _⟩ := bind_eq_ok.1 h
    refine ⟨⟨source, hsource⟩, ?_, ?_, exists_conditionsOf_iff.1 ⟨conditions, hc⟩,
      (exists_order_iff hd hm).1 ⟨order, ho⟩⟩
    · intro hnil
      obtain ⟨hmeasures, hdimensions⟩ := List.append_eq_nil_iff.1 hnil
      simp [hmeasures, hdimensions] at hne
    · intro m hmem
      rcases List.mem_append.1 hmem with hmem | hmem
      · exact exists_projections_iff.1 ⟨measures, hm⟩ m hmem
      · exact exists_projections_iff.1 ⟨dimensions, hd⟩ m hmem
  · intro h
    obtain ⟨source, hsource⟩ := h.source
    obtain ⟨dimensions, hd⟩ : ∃ ps, q.dimensions.mapM (Projection.ofMember style used) = .ok ps :=
      exists_projections_iff.2 fun m hm => h.members m (List.mem_append_right _ hm)
    obtain ⟨measures, hm⟩ : ∃ ps, q.measures.mapM (Projection.ofMember style used) = .ok ps :=
      exists_projections_iff.2 fun m hm => h.members m (List.mem_append_left _ hm)
    obtain ⟨conditions, hc⟩ := exists_conditionsOf_iff.2 h.filters
    obtain ⟨order, ho⟩ := (exists_order_iff hd hm).2 h.order
    have hne : ¬ (dimensions.isEmpty && measures.isEmpty) = true := by
      rw [isEmpty_of_mapM_ofMember hd, isEmpty_of_mapM_ofMember hm]
      intro hempty
      apply h.selects
      simpa [Query.members, and_comm] using hempty
    simp only [ofUsed, bind, Except.bind, hsource, hd, hm, hc, ho, if_neg hne]
    exact ⟨_, rfl⟩

theorem exists_compileQuery_iff {schemas : List TableSchema} :
    (∃ sql, compileQuery style q schemas = .ok sql) ↔
      schemas ≠ [] ∧ Acceptable q (schemasFor q schemas) := by
  have hrender : (∃ sql, compileQuery style q schemas = .ok sql) ↔
      ∃ statement, ofQuery style q schemas = .ok statement := by
    simp [compileQuery_eq_ok]
  rw [hrender, ofQuery]
  cases schemas with
  | nil => simp
  | cons first rest =>
    rw [if_neg (by simp), exists_ofUsed_iff]
    simp

/-- The members that a query selects, orders by or filters by, at any depth. -/
inductive Names (q : Query) (m : String) : Prop where
  | measure : m ∈ q.measures → Names q m
  | dimension : m ∈ q.dimensions → Names q m
  | order {entry : OrderEntry} : entry ∈ q.order → entry.member = m → Names q m
  | filter {f : Filter} : f ∈ q.filters → f.Mentions m → Names q m

theorem Acceptable.isSome_of_names (h : Acceptable q used) {m : String} (hm : Names q m) :
    (findField used m).isSome = true := by
  cases hm with
  | measure hmem => exact h.members m (List.mem_append_left _ hmem)
  | dimension hmem => exact h.members m (List.mem_append_right _ hmem)
  | order hmem hentry => exact hentry ▸ h.order _ hmem
  | filter hf hmentions =>
    obtain ⟨operator, values, hasks⟩ := Filter.mentions_iff_asks.1 hmentions
    obtain ⟨field, hfield, _⟩ := h.filters _ hf m operator values hasks
    rw [hfield, Option.isSome_some]

/-- The conditions part by part: the members that the query names are known, and where a filter asks
about one of them, the operator has the values that it needs there. -/
theorem acceptable_iff : Acceptable q used ↔
    (∃ chain, sourceOf q used = .ok chain) ∧
    (q.measures ≠ [] ∨ q.dimensions ≠ []) ∧
    (∀ m, Names q m → (findField used m).isSome = true) ∧
    ∀ f ∈ q.filters, ∀ m operator values, f.Asks m operator values →
      ∀ field, findField used m = some field → operator.takes field.type values = true := by
  have hselects : q.members ≠ [] ↔ q.measures ≠ [] ∨ q.dimensions ≠ [] := by
    rw [Query.members, ne_eq, List.append_eq_nil_iff, not_and_or]
  constructor
  · intro h
    refine ⟨h.source, hselects.1 h.selects, fun m hm => h.isSome_of_names hm, ?_⟩
    intro f hf m operator values hasks field hfield
    obtain ⟨other, hother, htakes⟩ := h.filters f hf m operator values hasks
    rw [hfield] at hother
    exact Option.some.inj hother ▸ htakes
  · rintro ⟨hsource, hne, hnames, htakes⟩
    refine ⟨hsource, hselects.2 hne, ?_, ?_, ?_⟩
    · intro m hm
      rcases List.mem_append.1 hm with hm | hm
      · exact hnames m (.measure hm)
      · exact hnames m (.dimension hm)
    · intro f hf m operator values hasks
      have hmentions := Filter.mentions_iff_asks.2 ⟨operator, values, hasks⟩
      obtain ⟨field, hfield⟩ := Option.isSome_iff_exists.1 (hnames m (.filter hf hmentions))
      exact ⟨field, hfield, htakes f hf m operator values hasks field hfield⟩
    · intro entry hentry
      exact hnames entry.member (.order hentry rfl)

/-- A query compiles if and only if there are schemas, the tables it uses can be joined, it selects
something, all members that it names are known, and the operators of its filters have the values
that they need. -/
theorem compileQuery_accepts_iff {schemas : List TableSchema} :
    (∃ sql, compileQuery style q schemas = .ok sql) ↔
      schemas ≠ [] ∧
      (∃ chain, sourceOf q (schemasFor q schemas) = .ok chain) ∧
      (q.measures ≠ [] ∨ q.dimensions ≠ []) ∧
      (∀ m, Names q m → (findField (schemasFor q schemas) m).isSome = true) ∧
      ∀ f ∈ q.filters, ∀ m operator values, f.Asks m operator values →
        ∀ field, findField (schemasFor q schemas) m = some field →
          operator.takes field.type values = true := by
  rw [exists_compileQuery_iff, acceptable_iff]

end Select

end SemanticLayer
