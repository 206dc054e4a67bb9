import SemanticLayer.Proofs.Filters
import SemanticLayer.Proofs.Statement

/-!
# SemanticLayer.Proofs.FilterMeaning

What the `WHERE` and `HAVING` clauses of a statement say.

A clause is a sequence of tokens, which `Token.Spelled` writes out. `Token.value` gives it a truth
value by reading it from left to right, with `AND` binding tighter than `OR`; `Filter.value` gives
one to a filter, which is a tree.
`filter_clauses_keep_meaning` says that the two clauses together hold exactly if all filters of the
query do, and which filter went into which clause.
-/

namespace SemanticLayer

/-! ## The value of a token sequence -/

/-- How far a token sequence has been read, and what it says up to there. -/
structure Reading where
  /-- An operand has to come next. -/
  atOperand : Bool := true
  /-- One of the alternatives before the last `OR` holds. -/
  settled : Bool := false
  /-- All operands since the last `OR` hold. -/
  current : Bool := true
  /-- `settled` and `current` outside of the open parentheses, from the innermost one on. -/
  outer : List (Bool × Bool) := []
deriving DecidableEq, Repr

namespace Reading

variable {truth : Predicate → Bool}

/-- Read an operand of the value `b`. -/
def take (r : Reading) (b : Bool) : Option Reading :=
  if r.atOperand then some { r with atOperand := false, current := r.current && b } else none

def step (truth : Predicate → Bool) (r : Reading) : Token → Option Reading
  | .atom p => r.take (truth p)
  | .truth => r.take true
  | .and => if r.atOperand then none else some { r with atOperand := true }
  | .or =>
    if r.atOperand then none
    else some
      { r with atOperand := true, settled := r.settled || r.current, current := true }
  | .opening =>
    if r.atOperand then some { outer := (r.settled, r.current) :: r.outer } else none
  | .closing =>
    if r.atOperand then none
    else
      match r.outer with
      | [] => none
      | (settled, current) :: outer =>
        take { settled, current, outer } (r.settled || r.current)

def run (truth : Predicate → Bool) : Reading → List Token → Option Reading
  | r, [] => some r
  | r, t :: rest =>
    match r.step truth t with
    | some next => run truth next rest
    | none => none

theorem run_append (r : Reading) (xs ys : List Token) :
    r.run truth (xs ++ ys) = (r.run truth xs).bind (run truth · ys) := by
  induction xs generalizing r with
  | nil => rfl
  | cons t rest ih =>
    simp only [List.cons_append, run]
    cases r.step truth t with
    | none => rfl
    | some next => exact ih next

end Reading

/-- The value of a whole sequence; none if it is no expression. -/
def Token.value (truth : Predicate → Bool) (tokens : List Token) : Option Bool :=
  match Reading.run truth {} tokens with
  | some ⟨false, settled, current, []⟩ => some (settled || current)
  | _ => none

example (truth : Predicate → Bool) (a b c : Predicate) :
    Token.value truth [.atom a, .or, .atom b, .and, .atom c] =
      some (truth a || (truth b && truth c)) := rfl

/-- The value of a clause. One that is left out restricts nothing. -/
def Token.clauseValue (truth : Predicate → Bool) (tokens : List Token) : Option Bool :=
  if tokens.isEmpty then some true else Token.value truth tokens

namespace Token

/-- The text of a token sequence. What a predicate looks like is left open. -/
inductive Spelled : List Token → String → Prop
  | nil : Spelled [] ""
  | atom (p : Predicate) {rest : List Token} {text : String} :
    Spelled rest text → Spelled (.atom p :: rest) (p.render ++ text)
  | truth {rest : List Token} {text : String} :
    Spelled rest text → Spelled (.truth :: rest) ("TRUE" ++ text)
  | and {rest : List Token} {text : String} :
    Spelled rest text → Spelled (.and :: rest) (" AND " ++ text)
  | or {rest : List Token} {text : String} :
    Spelled rest text → Spelled (.or :: rest) (" OR " ++ text)
  | opening {rest : List Token} {text : String} :
    Spelled rest text → Spelled (.opening :: rest) ("(" ++ text)
  | closing {rest : List Token} {text : String} :
    Spelled rest text → Spelled (.closing :: rest) (")" ++ text)

theorem render_cons (t : Token) (rest : List Token) :
    render (t :: rest) = t.sql ++ render rest := by
  simp [render]

theorem spelled_render (tokens : List Token) : Spelled tokens (render tokens) := by
  induction tokens with
  | nil => exact .nil
  | cons t rest ih =>
    rw [render_cons]
    cases t with
    | atom p => exact .atom p ih
    | truth => exact .truth ih
    | and => exact .and ih
    | or => exact .or ih
    | opening => exact .opening ih
    | closing => exact .closing ih

end Token

/-- Wherever an operand may stand, the tokens are read as one of the value `b`. -/
def Reads (truth : Predicate → Bool) (tokens : List Token) (b : Bool) : Prop :=
  ∀ r : Reading, r.atOperand = true → r.run truth tokens = r.take b

section Groups

variable {truth : Predicate → Bool}

theorem Reads.ne_nil {tokens : List Token} {b : Bool} (h : Reads truth tokens b) : tokens ≠ [] := by
  rintro rfl
  cases h {} rfl

theorem reads_atom (p : Predicate) : Reads truth [.atom p] (truth p) := by
  intro r hr
  simp [Reading.run, Reading.step, Reading.take, hr]

theorem reads_truth : Reads truth [.truth] true := by
  intro r hr
  simp [Reading.run, Reading.step, Reading.take, hr]

/-- Operands between `AND`s are read as one operand. -/
theorem reads_conjunction {parts : List (List Token)} {bs : List Bool}
    (h : List.Forall₂ (Reads truth) parts bs) (hne : parts ≠ []) :
    Reads truth ([Token.and].intercalate parts) (bs.all id) := by
  induction h with
  | nil => exact absurd rfl hne
  | @cons part b parts bs hpart hrest ih =>
    intro r hr
    cases hrest with
    | nil => simp [hpart r hr]
    | @cons next c parts bs hnext hrest =>
      have hrun := ih (by simp) { r with current := r.current && b } hr
      simp only [List.intercalate_cons_cons, Reading.run_append, hpart r hr, Reading.take, hr,
        Reading.run, Reading.step, if_true, Option.bind_some, List.all_cons, id] at hrun ⊢
      simpa [Bool.and_assoc] using hrun

/-- Operands between `OR`s start a new alternative each. -/
theorem run_disjunction {parts : List (List Token)} {bs : List Bool}
    (h : List.Forall₂ (Reads truth) parts bs) (hne : parts ≠ []) (settled : Bool)
    (outer : List (Bool × Bool)) :
    ∃ s c, (s || c) = (settled || bs.any id) ∧
      Reading.run truth { settled, outer } ([Token.or].intercalate parts) =
        some ⟨false, s, c, outer⟩ := by
  induction h generalizing settled with
  | nil => exact absurd rfl hne
  | @cons part b parts bs hpart hrest ih =>
    cases hrest with
    | nil =>
      refine ⟨settled, b, by simp, ?_⟩
      rw [List.intercalate_singleton, hpart _ rfl]
      rfl
    | @cons next c parts bs hnext hrest =>
      obtain ⟨s, c', hval, hrun⟩ := ih (by simp) (settled || b)
      refine ⟨s, c', ?_, ?_⟩
      · rw [hval]
        simp [Bool.or_assoc]
      · rw [List.intercalate_cons_cons, Reading.run_append, Reading.run_append, hpart _ rfl]
        simpa [Reading.take, Reading.run, Reading.step] using hrun

theorem reads_parentheses {inner : List Token} {b : Bool}
    (h : ∀ outer, ∃ s c, (s || c) = b ∧
      Reading.run truth { outer } inner = some ⟨false, s, c, outer⟩) :
    Reads truth (.opening :: inner ++ [.closing]) b := by
  intro r hr
  obtain ⟨s, c, hval, hrun⟩ := h ((r.settled, r.current) :: r.outer)
  rw [Reading.run_append]
  simp only [Reading.run, Reading.step, hr, if_true]
  rw [hrun]
  simp [Reading.take, hr, hval]

theorem group_cons_cons (connective : Token) (part next : List Token) (rest : List (List Token)) :
    Condition.group connective (part :: next :: rest) =
      .opening :: [connective].intercalate (part :: next :: rest) ++ [.closing] := rfl

/-- A group of `AND` is read as a conjunction, which is true without any parts. -/
theorem reads_group_and {parts : List (List Token)} {bs : List Bool}
    (h : List.Forall₂ (Reads truth) parts bs) :
    Reads truth (Condition.group .and parts) (bs.all id) := by
  match h with
  | .nil => exact reads_truth
  | .cons hpart .nil => simpa [Condition.group] using hpart
  | .cons hpart (.cons hnext hrest) =>
    rw [group_cons_cons]
    apply reads_parentheses
    intro outer
    exact ⟨false, _, rfl,
      reads_conjunction (.cons hpart (.cons hnext hrest)) (List.cons_ne_nil _ _) _ rfl⟩

/-- A group of `OR` is read as a disjunction, but as true without any parts. -/
theorem reads_group_or {parts : List (List Token)} {bs : List Bool}
    (h : List.Forall₂ (Reads truth) parts bs) :
    Reads truth (Condition.group .or parts) (bs.isEmpty || bs.any id) := by
  match h with
  | .nil => exact reads_truth
  | .cons hpart .nil => simpa [Condition.group] using hpart
  | .cons hpart (.cons hnext hrest) =>
    rw [group_cons_cons]
    apply reads_parentheses
    exact run_disjunction (.cons hpart (.cons hnext hrest)) (List.cons_ne_nil _ _) false

theorem Reads.value {tokens : List Token} {b : Bool} (h : Reads truth tokens b) :
    Token.value truth tokens = some b := by
  rw [Token.value, h {} rfl]
  simp [Reading.take]

theorem isEmpty_intercalate {parts : List (List Token)} (h : ∀ part ∈ parts, part ≠ []) :
    ([Token.and].intercalate parts).isEmpty = parts.isEmpty := by
  match parts with
  | [] => rfl
  | [part] => simpa using h part
  | part :: next :: rest => simp

theorem clauseValue_conjunction {parts : List (List Token)} {bs : List Bool}
    (h : List.Forall₂ (Reads truth) parts bs) :
    Token.clauseValue truth ([Token.and].intercalate parts) = some (bs.all id) := by
  match h with
  | .nil => rfl
  | .cons hpart hrest =>
    have hall := reads_conjunction (.cons hpart hrest) (List.cons_ne_nil _ _)
    rw [Token.clauseValue, if_neg (by simpa using hall.ne_nil), hall.value]

end Groups

/-! ## The value of a filter -/

namespace Filter

mutual
/-- The value of a filter whose predicates have the values that `leaf` says. An empty group is
true. -/
def value (leaf : String → Operator → List String → Bool) : Filter → Bool
  | all filters => (values leaf filters).all id
  | any filters => (values leaf filters).isEmpty || (values leaf filters).any id
  | member m operator vs => leaf m operator vs

def values (leaf : String → Operator → List String → Bool) : List Filter → List Bool
  | [] => []
  | f :: rest => value leaf f :: values leaf rest
end

theorem values_eq_map (leaf : String → Operator → List String → Bool) (filters : List Filter) :
    values leaf filters = filters.map (value leaf) := by
  induction filters with
  | nil => rfl
  | cons f rest ih => simp [values, ih]

/-- The predicate that a filter on one member stands for. -/
def predicate (schemas : List TableSchema) (m : String) (operator : Operator)
    (vs : List String) : Except CompileError Predicate :=
  match Condition.lookup schemas m with
  | .ok field => Predicate.ofFilter m field operator vs
  | .error e => .error e

end Filter

namespace Condition

theorem tokensList_eq_map (conditions : List Condition) :
    tokensList conditions = conditions.map tokens := by
  induction conditions with
  | nil => rfl
  | cons c rest ih => simp [tokensList, ih]

theorem ofFilters_eq_mapM (schemas : List TableSchema) (filters : List Filter) :
    ofFilters schemas filters = filters.mapM (ofFilter schemas) := by
  induction filters with
  | nil => rfl
  | cons f rest ih =>
    rw [ofFilters, List.mapM_cons, ih]
    cases ofFilter schemas f with
    | error e => rfl
    | ok c => cases rest.mapM (ofFilter schemas) <;> rfl

theorem ofFilter_all_eq_ok {schemas : List TableSchema} {filters : List Filter} {c : Condition} :
    ofFilter schemas (.all filters) = .ok c ↔
      ∃ parts, filters.mapM (ofFilter schemas) = .ok parts ∧ c = .all parts := by
  rw [ofFilter, ofFilters_eq_mapM]
  cases filters.mapM (ofFilter schemas) <;> simp [eq_comm]

theorem ofFilter_any_eq_ok {schemas : List TableSchema} {filters : List Filter} {c : Condition} :
    ofFilter schemas (.any filters) = .ok c ↔
      ∃ parts, filters.mapM (ofFilter schemas) = .ok parts ∧ c = .any parts := by
  rw [ofFilter, ofFilters_eq_mapM]
  cases filters.mapM (ofFilter schemas) <;> simp [eq_comm]

theorem ofFilter_member_eq_ok {schemas : List TableSchema} {m : String} {operator : Operator}
    {vs : List String} {c : Condition} :
    ofFilter schemas (.member m operator vs) = .ok c ↔
      ∃ p, Filter.predicate schemas m operator vs = .ok p ∧ c = .atom p := by
  rw [ofFilter, Filter.predicate]
  cases lookup schemas m with
  | error e => simp
  | ok field =>
    simp only
    cases Predicate.ofFilter m field operator vs <;> simp [eq_comm]

/-- The condition of a filter depends on the fields of its members alone. -/
theorem ofFilter_congr {s t : List TableSchema} {f : Filter}
    (h : ∀ m, f.Mentions m → findField s m = findField t m) : ofFilter s f = ofFilter t f := by
  induction f using Filter.induction with
  | all filters ih =>
    have hparts : filters.mapM (ofFilter s) = filters.mapM (ofFilter t) :=
      mapM_congr fun f hf => ih f hf fun m hm => h m (.all hf hm)
    rw [ofFilter, ofFilter, ofFilters_eq_mapM, ofFilters_eq_mapM, hparts]
  | any filters ih =>
    have hparts : filters.mapM (ofFilter s) = filters.mapM (ofFilter t) :=
      mapM_congr fun f hf => ih f hf fun m hm => h m (.any hf hm)
    rw [ofFilter, ofFilter, ofFilters_eq_mapM, ofFilters_eq_mapM, hparts]
  | member m operator vs =>
    rw [ofFilter, ofFilter, lookup, lookup, h m (.member operator vs)]

end Condition

/-- `leaf` gives the predicates of filters the values that `truth` gives them. -/
def Agree (schemas : List TableSchema) (truth : Predicate → Bool)
    (leaf : String → Operator → List String → Bool) : Prop :=
  ∀ m operator vs p, Filter.predicate schemas m operator vs = .ok p →
    leaf m operator vs = truth p

theorem exists_agree (schemas : List TableSchema) (truth : Predicate → Bool) :
    ∃ leaf, Agree schemas truth leaf := by
  refine ⟨fun m operator vs => (Filter.predicate schemas m operator vs).toOption.all truth, ?_⟩
  intro m operator vs p hp
  simp [hp, Except.toOption]

theorem reads_tokens {schemas : List TableSchema} {truth : Predicate → Bool}
    {leaf : String → Operator → List String → Bool} (agree : Agree schemas truth leaf) {f : Filter}
    {c : Condition} (h : Condition.ofFilter schemas f = .ok c) :
    Reads truth c.tokens (f.value leaf) := by
  induction f using Filter.induction generalizing c with
  | all filters ih =>
    obtain ⟨parts, hparts, rfl⟩ := Condition.ofFilter_all_eq_ok.1 h
    rw [Condition.tokens, Condition.tokensList_eq_map, Filter.value, Filter.values_eq_map]
    apply reads_group_and
    rw [List.forall₂_map_left_iff, List.forall₂_map_right_iff]
    exact forall₂_of_mapM_ok hparts fun f hf c hc => ih f hf hc
  | any filters ih =>
    obtain ⟨parts, hparts, rfl⟩ := Condition.ofFilter_any_eq_ok.1 h
    rw [Condition.tokens, Condition.tokensList_eq_map, Filter.value, Filter.values_eq_map]
    apply reads_group_or
    rw [List.forall₂_map_left_iff, List.forall₂_map_right_iff]
    exact forall₂_of_mapM_ok hparts fun f hf c hc => ih f hf hc
  | member m operator vs =>
    obtain ⟨p, hp, rfl⟩ := Condition.ofFilter_member_eq_ok.1 h
    rw [Condition.tokens, Filter.value, agree m operator vs p hp]
    exact reads_atom p

theorem tokens_ne_nil {schemas : List TableSchema} {f : Filter} {c : Condition}
    (h : Condition.ofFilter schemas f = .ok c) : c.tokens ≠ [] := by
  have hreads : Reads (fun _ => true) c.tokens (f.value fun _ _ _ => true) :=
    reads_tokens (fun _ _ _ _ _ => rfl) h
  exact hreads.ne_nil

/-! ## The clauses of a statement -/

namespace Select

theorem onMeasure_eq_true {schemas : List TableSchema} {f : Filter} :
    onMeasure schemas f = true ↔
      ∃ m, f.Mentions m ∧ ∃ x, findField schemas m = some (.measure x) := by
  rw [onMeasure, List.any_eq_true]
  refine exists_congr fun m => and_congr Filter.mem_members ?_
  cases findField schemas m with
  | none => simp
  | some field => cases field <;> simp [Field.isMeasure]

theorem onMeasure_congr {s t : List TableSchema} {f : Filter}
    (h : ∀ m, f.Mentions m → findField s m = findField t m) : onMeasure s f = onMeasure t f := by
  rw [Bool.eq_iff_iff, onMeasure_eq_true, onMeasure_eq_true]
  refine exists_congr fun m => and_congr_right fun hm => ?_
  rw [h m hm]

theorem conditionsOf_ok {schemas : List TableSchema} {filters : List Filter}
    {conditions : List (Filter × Condition)} (h : conditionsOf schemas filters = .ok conditions) :
    conditions.map (·.1) = filters ∧
      ∀ w ∈ conditions, Condition.ofFilter schemas w.1 = .ok w.2 := by
  constructor
  · rw [← List.map_id filters]
    apply map_of_mapM_ok h
    intro f _ w hw
    obtain ⟨c, _, hw⟩ := bind_eq_ok.1 hw
    cases hw
    rfl
  · intro w hw
    obtain ⟨f, _, hf⟩ := exists_of_mem_mapM_ok h hw
    obtain ⟨c, hc, hf⟩ := bind_eq_ok.1 hf
    cases hf
    exact hc

/-- The conditions of a statement, found in all schemas. Those that are left out have no say. -/
theorem exists_conditions {style : KeyStyle} {q : Query} {schemas : List TableSchema}
    {statement : Select} (h : ofQuery style q schemas = .ok statement) :
    ∃ conditions : List (Filter × Condition), conditions.map (·.1) = q.filters ∧
      (∀ w ∈ conditions, Condition.ofFilter schemas w.1 = .ok w.2) ∧
      statement.rows = (conditions.filter fun w => !onMeasure schemas w.1).map (·.2) ∧
      statement.groups = (conditions.filter fun w => onMeasure schemas w.1).map (·.2) := by
  obtain ⟨parts⟩ := ofQuery_parts h
  obtain ⟨hfilters, hconditions⟩ := conditionsOf_ok parts.filters
  have hfield : ∀ w ∈ parts.conditions, ∀ m, w.1.Mentions m →
      findField (schemasFor q schemas) m = findField schemas m := by
    intro w hw m hm
    have hf : w.1 ∈ q.filters := hfilters ▸ List.mem_map_of_mem hw
    apply findField_schemasFor
    apply table_mem_of_filtered
    rw [Filter.membersList_eq_flatMap]
    exact List.mem_flatMap.2 ⟨w.1, hf, Filter.mem_members.2 hm⟩
  have hmeasure : ∀ w ∈ parts.conditions,
      onMeasure (schemasFor q schemas) w.1 = onMeasure schemas w.1 :=
    fun w hw => onMeasure_congr (hfield w hw)
  refine ⟨parts.conditions, hfilters, ?_, ?_, ?_⟩
  · intro w hw
    rw [← hconditions w hw, Condition.ofFilter_congr (hfield w hw)]
  · rw [parts.rows]
    congr 1
    exact List.filter_congr fun w hw => by rw [hmeasure w hw]
  · rw [parts.groups]
    congr 1
    exact List.filter_congr hmeasure

/-- The tokens of a clause for the filters that are chosen by `p`, written out one by one. It has
none exactly if no filter is chosen. -/
theorem conjunction_written {schemas : List TableSchema} {conditions : List (Filter × Condition)}
    (h : ∀ w ∈ conditions, Condition.ofFilter schemas w.1 = .ok w.2) (p : Filter → Bool)
    {tokens : List Token}
    (htokens : tokens = [Token.and].intercalate
      (((conditions.map fun w => (w.1, w.2.tokens)).filter fun w => p w.1).map (·.2))) :
    Condition.conjunction ((conditions.filter fun w => p w.1).map (·.2)) = tokens ∧
      ((conditions.filter fun w => p w.1).map (·.2)).isEmpty = tokens.isEmpty := by
  have hmap : ((conditions.map fun w => (w.1, w.2.tokens)).filter fun w => p w.1).map (·.2) =
      ((conditions.filter fun w => p w.1).map (·.2)).map (·.tokens) := by
    simp [List.filter_map, Function.comp_def]
  have hparts : ∀ part ∈ ((conditions.filter fun w => p w.1).map (·.2)).map (·.tokens),
      part ≠ [] := by
    intro part hpart
    simp only [List.map_map, List.mem_map, List.mem_filter, Function.comp_apply] at hpart
    obtain ⟨w, ⟨hw, -⟩, rfl⟩ := hpart
    exact tokens_ne_nil (h w hw)
  rw [htokens, hmap]
  refine ⟨?_, ?_⟩
  · rw [Condition.conjunction, Condition.tokensList_eq_map]
  · simp only [isEmpty_intercalate hparts, List.isEmpty_map]

end Select

theorem all_filter_and_all_filter {α : Type} (p q : α → Bool) (xs : List α) :
    ((xs.filter fun x => !p x).all q && (xs.filter p).all q) = xs.all q := by
  induction xs with
  | nil => rfl
  | cons x rest ih =>
    simp only [List.all_cons, ← ih]
    cases hp : p x <;> simp [hp, Bool.and_assoc, Bool.and_left_comm]

/-- What is read of written filters that all must hold. -/
theorem clauseValue_written {truth : Predicate → Bool}
    {leaf : String → Operator → List String → Bool} {written : List (Filter × List Token)}
    (h : ∀ w ∈ written, Reads truth w.2 (w.1.value leaf)) :
    Token.clauseValue truth ([Token.and].intercalate (written.map (·.2))) =
      some (written.all fun w => w.1.value leaf) := by
  have hparts : List.Forall₂ (Reads truth) (written.map (·.2))
      (written.map fun w => w.1.value leaf) := by
    rw [List.forall₂_map_left_iff, List.forall₂_map_right_iff, List.forall₂_same]
    exact h
  rw [clauseValue_conjunction hparts, List.all_map]
  rfl

/-- How the statement `sql` writes the filters of the query `q`, and what it says with them. -/
structure FilterClauses (schemas : List TableSchema) (q : Query) (statement : Select)
    (sql : String) where
  /-- Each filter with its tokens. -/
  written : List (Filter × List Token)
  /-- The tokens after `WHERE`. -/
  rows : List Token
  /-- The tokens after `HAVING`. -/
  groups : List Token
  rowsText : String
  groupsText : String
  filters : written.map (·.1) = q.filters
  rows_eq : rows = [Token.and].intercalate
    ((written.filter fun w => !Select.onMeasure schemas w.1).map (·.2))
  groups_eq : groups = [Token.and].intercalate
    ((written.filter fun w => Select.onMeasure schemas w.1).map (·.2))
  /-- The filters in the second clause are those that mention a measure, at any depth. -/
  onMeasure_iff : ∀ f ∈ q.filters, Select.onMeasure schemas f = true ↔
    ∃ m, f.Mentions m ∧ ∃ x, findField schemas m = some (.measure x)
  rows_spelled : Token.Spelled rows rowsText
  groups_spelled : Token.Spelled groups groupsText
  text : sql = "SELECT "
    ++ ", ".intercalate (statement.columns.map fun c => c.expr ++ " AS " ++ c.label.sql)
    ++ " FROM " ++ statement.source.renderFrom
    ++ (if rows.isEmpty then "" else " WHERE " ++ rowsText)
    ++ (if statement.groupedBy == 0 then ""
      else " GROUP BY "
        ++ ", ".intercalate ((List.range statement.groupedBy).map fun i => toString (i + 1)))
    ++ (if groups.isEmpty then "" else " HAVING " ++ groupsText)
    ++ (if statement.order.isEmpty then ""
      else " ORDER BY "
        ++ ", ".intercalate (statement.order.map fun k => k.target ++ " " ++ k.direction.sql))
    ++ (statement.limit.elim "" fun n => " LIMIT " ++ toString n.toNat)
    ++ (statement.offset.elim "" fun n => " OFFSET " ++ toString n.toNat)
  /-- Whatever the predicates say, the two clauses together say what the filters say. -/
  meaning : ∀ truth, (∃ leaf, Agree schemas truth leaf) ∧ ∀ leaf, Agree schemas truth leaf →
    (∀ w ∈ written, Token.value truth w.2 = some (w.1.value leaf)) ∧
    ∃ a b, Token.clauseValue truth rows = some a ∧ Token.clauseValue truth groups = some b ∧
      (a && b) = q.filters.all (·.value leaf)

/-- The filters of an accepted query are written out one by one, those that mention a measure in the
`HAVING` clause and the others in the `WHERE` clause, and keep their meaning. -/
theorem filter_clauses_keep_meaning {style : KeyStyle} {q : Query} {schemas : List TableSchema}
    {sql : String} (accepted : compileQuery style q schemas = .ok sql) :
    ∃ statement, Select.ofQuery style q schemas = .ok statement ∧
      Nonempty (FilterClauses schemas q statement sql) := by
  obtain ⟨statement, hs, rfl⟩ := compileQuery_eq_ok.1 accepted
  obtain ⟨conditions, hfilters, hconditions, hrows, hgroups⟩ := Select.exists_conditions hs
  obtain ⟨hrowTokens, hnoRows⟩ := Select.conjunction_written hconditions
    (fun f => !Select.onMeasure schemas f) rfl
  obtain ⟨hgroupTokens, hnoGroups⟩ := Select.conjunction_written hconditions
    (Select.onMeasure schemas) rfl
  refine ⟨statement, hs, ⟨{
    written := conditions.map fun w => (w.1, w.2.tokens)
    rows := _, groups := _, rows_eq := rfl, groups_eq := rfl
    rowsText := _, groupsText := _
    rows_spelled := Token.spelled_render _, groups_spelled := Token.spelled_render _
    onMeasure_iff := fun _ _ => Select.onMeasure_eq_true
    filters := ?_, text := ?_, meaning := ?_ }⟩⟩
  · rw [List.map_map, ← hfilters]
    rfl
  · rw [Select.render_eq, hrows, hgroups, hrowTokens, hgroupTokens, hnoRows, hnoGroups]
  · refine fun truth => ⟨exists_agree schemas truth, fun leaf agree => ?_⟩
    have hreads : ∀ w ∈ conditions.map fun w => (w.1, w.2.tokens),
        Reads truth w.2 (w.1.value leaf) := by
      intro w hw
      obtain ⟨c, hc, rfl⟩ := List.mem_map.1 hw
      exact reads_tokens agree (hconditions c hc)
    refine ⟨fun w hw => (hreads w hw).value, _, _,
      clauseValue_written fun w hw => hreads w (List.mem_filter.1 hw).1,
      clauseValue_written fun w hw => hreads w (List.mem_filter.1 hw).1, ?_⟩
    rw [all_filter_and_all_filter, ← hfilters, List.all_map, List.all_map]
    rfl

theorem shop_filter_clauses_keep_meaning :
    ∃ sql, compileQuery .underscore shopQuery shopSchemas = .ok sql ∧
      sql = "SELECT orders.id AS orders__id, customers.name AS \"Customer\", "
        ++ "SUM(orders.amount) AS \"Total \"\"EUR\"\"\" FROM (SELECT * FROM orders) AS orders "
        ++ "LEFT JOIN (SELECT * FROM customers) AS customers  ON orders.customer_id = customers.id "
        ++ "WHERE (customers.name ILIKE '%a%' OR (orders.id > 10 AND orders.id < 20) OR TRUE) "
        ++ "AND (customers.name IS NOT NULL OR orders.id = 7) "
        ++ "GROUP BY 1, 2 HAVING SUM(orders.amount) >= 100 ORDER BY orders__id ASC" ∧
      ∃ statement, Select.ofQuery .underscore shopQuery shopSchemas = .ok statement ∧
        Nonempty (FilterClauses shopSchemas shopQuery statement sql) := by
  refine ⟨_, ?accepted, rfl, filter_clauses_keep_meaning ?accepted⟩
  decide +kernel

end SemanticLayer
