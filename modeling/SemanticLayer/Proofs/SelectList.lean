import Mathlib.Data.List.Basic
import SemanticLayer.Proofs.Headings

/-!
# SemanticLayer.Proofs.SelectList

The text of a select list: `SELECT`, then for each member its expression, `AS` and its label, then
`FROM`.

* `Select.getElem?_items`: the item of a member, by the place that the member has in the query.
* `Compiler.Answered.Selects`: the answer of a call has the select list of the given labels.
* `Compiler.Answered.selects_labels`: every statement has the list of its own labels.
* `Select.labels_eq_quoted`: over schemas with aliases for all fields, the labels are the columns of
  the statement in quotes.
-/

namespace SemanticLayer

/-- How a select list names the column `name` of a field: in quotes if it has an alias or the keys
are dotted. -/
def writtenName (style : KeyStyle) (field : Field) (name : String) : String :=
  if field.alias.isSome ∨ style = .dotted then quoteIdentifier name else name

theorem sql_ofMember (style : KeyStyle) (member : String) (field : Field) :
    (Label.ofMember style member field.alias).sql =
      writtenName style field (style.columnName member field.alias) := by
  simp [Label.sql, Label.ofMember, writtenName]

theorem eq_of_map_some_eq {α : Type} {xs ys : List α} (h : xs.map some = ys.map some) : xs = ys :=
  (List.map_inj_right fun _ _ => Option.some.inj).1 h

theorem filterMap_of_map_eq {α β : Type} {f : α → Option β} {xs : List α} {ys : List β}
    (h : xs.map f = ys.map some) : ys = xs.filterMap f := by
  calc ys = (ys.map some).filterMap id := by simp
    _ = (xs.map f).filterMap id := by rw [h]
    _ = xs.filterMap f := by simp [List.filterMap_map]

theorem exists_of_map_eq {α β : Type} {f : α → Option β} {xs : List α} {ys : List β}
    (h : xs.map f = ys.map some) {x : α} (hx : x ∈ xs) : ∃ y, f x = some y := by
  have hmem : f x ∈ ys.map some := h ▸ List.mem_map_of_mem hx
  obtain ⟨y, -, hy⟩ := List.mem_map.1 hmem
  exact ⟨y, hy.symm⟩

namespace Select

/-! ## Items -/

/-- The items of the select list of a statement. -/
def items (s : Select) : List String := s.columns.map fun c => c.expr ++ " AS " ++ c.label.sql

/-- The labels of a statement, as its select list writes them. -/
def labels (s : Select) : List String := s.columns.map (·.label.sql)

theorem render_eq_items (s : Select) :
    ∃ rest, s.render = "SELECT " ++ ", ".intercalate s.items ++ " FROM " ++ rest := by
  rw [render_eq, ← items]
  simp only [String.append_assoc]
  exact ⟨_, rfl⟩

theorem items_eq_zipWith (s : Select) :
    s.items = List.zipWith (fun expr label => expr ++ " AS " ++ label) (s.columns.map (·.expr))
      s.labels := by
  rw [labels, List.zipWith_map, List.zipWith_self]
  rfl

section Parts

variable {style : KeyStyle} {q : Query} {used : List TableSchema} {statement : Select}

theorem isEmpty_measures (parts : Parts style q used statement) :
    parts.measures.isEmpty = q.measures.isEmpty := by
  have hlength := length_of_mapM_ok parts.aggregates
  cases hm : parts.measures <;> cases hq : q.measures <;> simp_all

/-- The members of a query are projected in the order in which it lists them. -/
theorem mapM_ofMember (parts : Parts style q used statement) :
    (q.dimensions ++ q.measures).mapM (Projection.ofMember style used) =
      .ok (parts.dimensions ++ parts.measures) := by
  rw [mapM_eq_ok, List.map_append, mapM_eq_ok.1 parts.projects, mapM_eq_ok.1 parts.aggregates,
    List.map_append]

/-- The expressions of a statement are those of the fields of its members. -/
theorem exprs_eq (parts : Parts style q used statement) :
    statement.columns.map (·.expr) = (q.dimensions ++ q.measures).filterMap fun member =>
      (findField used member).map (Projection.expr (!q.measures.isEmpty)) := by
  apply filterMap_of_map_eq
  rw [parts.columns, isEmpty_measures parts, List.map_map, List.map_map]
  symm
  apply map_of_mapM_ok (mapM_ofMember parts)
  intro member _ p hp
  obtain ⟨field, hf, rfl⟩ := Projection.ofMember_eq_ok.1 hp
  simp [hf, Projection.column]

/-- The labels of a statement are the written names of its members. -/
theorem labels_eq (parts : Parts style q used statement) :
    ((q.dimensions ++ q.measures).map fun member => (findField used member).map fun field =>
      writtenName style field (style.columnName member field.alias)) =
        statement.labels.map some := by
  rw [labels, parts.columns, List.map_map, List.map_map]
  symm
  apply map_of_mapM_ok (mapM_ofMember parts)
  intro member _ p hp
  obtain ⟨field, hf, rfl⟩ := Projection.ofMember_eq_ok.1 hp
  simp [hf, Projection.column, sql_ofMember]

end Parts

end Select

/-! ## Schemas with aliases -/

theorem Query.mem_members {q : Query} {member : String} :
    member ∈ q.members ↔ member ∈ q.dimensions ++ q.measures := by
  rw [members, List.mem_append, List.mem_append, or_comm]

/-- Every field of the schema has an alias. -/
def TableSchema.FullyAliased (s : TableSchema) : Prop := ∀ field ∈ s.fields, field.alias.isSome

theorem TableSchema.fullyAliased_of_headings {s : TableSchema}
    (hdimensions : Heading.Aliased s.headings) (hmeasures : Heading.Aliased s.measureHeadings) :
    s.FullyAliased := by
  intro field hfield
  rcases List.mem_append.1 hfield with h | h
  · obtain ⟨d, hd, rfl⟩ := List.mem_map.1 h
    have halias : d.alias = some d.heading.column := hdimensions _ (List.mem_map_of_mem hd)
    simp [Field.alias, halias]
  · obtain ⟨m, hm, rfl⟩ := List.mem_map.1 h
    have halias : m.alias = some m.heading.column := hmeasures _ (List.mem_map_of_mem hm)
    simp [Field.alias, halias]

theorem TableSchema.fullyAliased_of_no_measures {s : TableSchema} (hmeasures : s.measures = [])
    (h : Heading.Aliased s.headings) : s.FullyAliased := by
  apply fullyAliased_of_headings h
  simp [measureHeadings, hmeasures, Heading.Aliased]

theorem Select.labels_eq_quoted {style : KeyStyle} {q : Query} {schemas : List TableSchema}
    {statement : Select} (h : ofQuery style q schemas = .ok statement)
    (aliased : ∀ s ∈ schemas, s.FullyAliased) :
    statement.labels = statement.names.map quoteIdentifier := by
  obtain ⟨parts⟩ := ofQuery_parts h
  rw [labels, names, parts.columns, List.map_map, List.map_map, List.map_map]
  apply List.map_congr_left
  intro p hp
  obtain ⟨member, hmember, hok⟩ := exists_of_mem_mapM_ok (mapM_ofMember parts) hp
  obtain ⟨field, hf, rfl⟩ := Projection.ofMember_eq_ok.1 hok
  rw [findField_schemasFor (table_mem_of_selected (Query.mem_members.2 hmember))] at hf
  obtain ⟨s, hs, -, hfield, -⟩ := findField_eq_some hf
  simp [Projection.column, Label.sql, Label.ofMember, aliased s hs field hfield]

/-! ## Answers -/

/-- The expressions of the members that a call selects. -/
def Call.expressions (call : Call) : List String :=
  (call.query.dimensions ++ call.query.measures).filterMap fun member =>
    (findField call.schemas member).map (Projection.expr (!call.query.measures.isEmpty))

namespace Compiler.Answered

/-- The call was answered with the given SQL, a statement which selects the expressions of the call
under the given labels and nothing else. -/
structure Selects (a : Answered) (sql : String) (labels : List String) : Prop where
  answer : a.answer = .ok sql
  length : a.call.expressions.length = labels.length
  text : ∃ rest, sql = "SELECT "
    ++ ", ".intercalate (List.zipWith (fun expr label => expr ++ " AS " ++ label)
      a.call.expressions labels)
    ++ " FROM " ++ rest

theorem selects_labels {style : KeyStyle} {call : Call} {statement : Select}
    (h : Select.ofQuery style call.query call.schemas = .ok statement) :
    Selects ⟨call, .ok statement.render⟩ statement.render statement.labels := by
  obtain ⟨parts⟩ := Select.ofQuery_parts h
  have hexprs : statement.columns.map (·.expr) = call.expressions := by
    rw [Select.exprs_eq parts, Call.expressions]
    apply List.filterMap_congr
    intro member hmember
    rw [findField_schemasFor (table_mem_of_selected (Query.mem_members.2 hmember))]
  refine ⟨rfl, ?_, ?_⟩
  · simp [← hexprs, Select.labels]
  · rw [← hexprs, ← Select.items_eq_zipWith]
    exact statement.render_eq_items

end Compiler.Answered
end SemanticLayer
