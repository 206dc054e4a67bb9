import SemanticLayer.Proofs.Calling

/-!
# SemanticLayer.Proofs.Statement

The parts of a compiled statement. A query that is accepted has found a field for each of its
members and a condition for each of its filters (`Select.ofQuery_parts`). Schemas that are left out
make no difference to a member of the query, be it selected or filtered by (`findField_schemasFor`).
`Select.render_eq` is the text that a statement is written as.
-/

namespace SemanticLayer

/-! ## Left-out schemas -/

theorem table_mem_of_selected {q : Query} {member : String} (h : member ∈ q.members) :
    Member.table member ∈ q.tables :=
  List.mem_map_of_mem (List.mem_append_right _ h)

theorem table_mem_of_filtered {q : Query} {member : String}
    (h : member ∈ Filter.membersList q.filters) : Member.table member ∈ q.tables :=
  List.mem_map_of_mem (List.mem_append_left _ h)

/-- The schemas of the given tables. -/
def schemasOf (tables : List String) (schemas : List TableSchema) : List TableSchema :=
  schemas.filter fun s => s.name ∈ tables

theorem findField_schemasOf {tables : List String} {schemas : List TableSchema} (m : String) :
    findField (schemasOf tables schemas) m =
      if Member.table m ∈ tables then findField schemas m else none := by
  rw [findField, findField, schemasOf, List.filter_filter, Member.table]
  split
  · rename_i htable
    congr 1
    apply List.filter_congr
    intro s _
    by_cases hs : s.name = (Member.split m).1 <;> simp [hs, htable]
  · rename_i htable
    rw [List.findSome?_eq_none_iff]
    intro s hs
    simp only [List.mem_filter, Bool.and_eq_true, decide_eq_true_eq] at hs
    exact absurd (hs.2.1 ▸ hs.2.2) htable

theorem findField_schemasFor {q : Query} {member : String} (h : Member.table member ∈ q.tables)
    (schemas : List TableSchema) :
    findField (Select.schemasFor q schemas) member = findField schemas member := by
  unfold Select.schemasFor
  split
  · rfl
  · rw [usedSchemas]
    split
    · rfl
    · rw [← schemasOf, findField_schemasOf, if_pos h]

/-! ## Projections and conditions -/

theorem Projection.ofMember_eq_ok {style : KeyStyle} {schemas : List TableSchema} {member : String}
    {p : Projection} :
    Projection.ofMember style schemas member = .ok p ↔
      ∃ field, findField schemas member = some field ∧
        p = { member, field, label := .ofMember style member field.alias } := by
  rw [Projection.ofMember, Condition.lookup]
  cases findField schemas member <;> simp [eq_comm]

namespace Select

theorem clause_eq (keyword opening : String) (h : " " ++ keyword ++ " " = opening)
    (content : String) (isEmpty : Bool) :
    clause keyword content isEmpty = if isEmpty then "" else opening ++ content := by
  rw [clause, h]

theorem renderPaging_eq (keyword opening : String) (h : " " ++ keyword ++ " " = opening)
    (n : Option UInt64) :
    renderPaging keyword n = n.elim "" fun n => opening ++ toString n.toNat := by
  cases n with
  | none => rfl
  | some n => rw [renderPaging, h, Option.elim_some]

/-- The text of a statement. -/
theorem render_eq (s : Select) :
    s.render = "SELECT "
      ++ ", ".intercalate (s.columns.map fun c => c.expr ++ " AS " ++ c.label.sql)
      ++ " FROM " ++ s.source.renderFrom
      ++ (if s.rows.isEmpty then "" else " WHERE " ++ Token.render (Condition.conjunction s.rows))
      ++ (if s.groupedBy == 0 then ""
        else " GROUP BY "
          ++ ", ".intercalate ((List.range s.groupedBy).map fun i => toString (i + 1)))
      ++ (if s.groups.isEmpty then ""
        else " HAVING " ++ Token.render (Condition.conjunction s.groups))
      ++ (if s.order.isEmpty then ""
        else " ORDER BY "
          ++ ", ".intercalate (s.order.map fun k => k.target ++ " " ++ k.direction.sql))
      ++ (s.limit.elim "" fun n => " LIMIT " ++ toString n.toNat)
      ++ (s.offset.elim "" fun n => " OFFSET " ++ toString n.toNat) := by
  unfold render renderConditions
  rw [clause_eq "WHERE" " WHERE " (by decide +kernel),
    clause_eq "GROUP BY" " GROUP BY " (by decide +kernel),
    clause_eq "HAVING" " HAVING " (by decide +kernel),
    clause_eq "ORDER BY" " ORDER BY " (by decide +kernel),
    renderPaging_eq "LIMIT" " LIMIT " (by decide +kernel),
    renderPaging_eq "OFFSET" " OFFSET " (by decide +kernel)]
  rfl

/-- What a statement for the query `q` over the schemas `used` is made of. -/
structure Parts (style : KeyStyle) (q : Query) (used : List TableSchema) (statement : Select) where
  dimensions : List Projection
  measures : List Projection
  conditions : List (Filter × Condition)
  source : sourceOf q used = .ok statement.source
  projects : q.dimensions.mapM (Projection.ofMember style used) = .ok dimensions
  aggregates : q.measures.mapM (Projection.ofMember style used) = .ok measures
  filters : conditionsOf used q.filters = .ok conditions
  orders : q.order.mapM (orderKey used (dimensions ++ measures)) = .ok statement.order
  columns : statement.columns =
    (dimensions ++ measures).map (Projection.column (!measures.isEmpty))
  rows : statement.rows = (conditions.filter fun c => !onMeasure used c.1).map (·.2)
  groups : statement.groups = (conditions.filter fun c => onMeasure used c.1).map (·.2)

theorem ofQuery_parts {style : KeyStyle} {q : Query} {schemas : List TableSchema}
    {statement : Select} (h : ofQuery style q schemas = .ok statement) :
    Nonempty (Parts style q (schemasFor q schemas) statement) := by
  rw [ofQuery] at h
  split at h
  · cases h
  · rw [ofUsed] at h
    obtain ⟨source, hsource, h⟩ := bind_eq_ok.1 h
    obtain ⟨dimensions, hd, h⟩ := bind_eq_ok.1 h
    obtain ⟨measures, hm, h⟩ := bind_eq_ok.1 h
    split at h
    · cases h
    · obtain ⟨conditions, hc, h⟩ := bind_eq_ok.1 h
      obtain ⟨order, ho, h⟩ := bind_eq_ok.1 h
      cases h
      exact ⟨⟨dimensions, measures, conditions, hsource, hd, hm, hc, ho, rfl, rfl, rfl⟩⟩

end Select

/-! ## A query -/

def shopSchemas : List TableSchema :=
  [{ name := "orders"
     sql := "SELECT * FROM orders"
     measures :=
       [{ name := "total", sql := "SUM(orders.amount)", type := .number,
          «alias» := some "Total \"EUR\"" }]
     dimensions := [{ name := "id", sql := "orders.id", type := .number }]
     joins := [⟨"orders.customer_id = customers.id"⟩, ⟨"orders.region_id = regions.id"⟩] },
   { name := "customers"
     sql := "SELECT * FROM customers"
     dimensions :=
       [{ name := "name", sql := "customers.name", type := .string, «alias» := some "Customer" }] },
   { name := "regions"
     sql := "SELECT * FROM regions"
     dimensions := [{ name := "code", sql := "regions.code", type := .string }] }]

/-- Totals of orders by customer. The filters leave out the regions, and one of them is on the
totals. -/
def shopQuery : Query where
  measures := ["orders.total"]
  dimensions := ["orders.id", "customers.name"]
  filters :=
    [.any [.member "customers.name" .contains ["a"],
       .all [.member "orders.id" .gt ["10"], .member "orders.id" .lt ["20"]], .any []],
     .all [.member "orders.total" .gte ["100"]],
     .any [.member "customers.name" .isSet [], .member "orders.id" .equals ["7"]]]
  joinPaths := [[.join ⟨"orders", "customers", "customer_id"⟩]]
  order := [⟨"orders.id", .ascending⟩]

end SemanticLayer
