import SemanticLayer.Proofs.Names
import SemanticLayer.Proofs.Statement

/-!
# SemanticLayer.Proofs.Headings

The names of the columns that a statement puts out.

A schema lists its columns by heading: the name of a field and its alias. What a member is selected
under depends on the headings alone (`selectedName_of_heading`), so headings are what has to be
followed from one schema to the next. `Select.ofQuery_ok` says that a compiled statement puts out
its members under their selected names and in their order.
-/

namespace SemanticLayer

theorem find?_eq_some_of_unique {α : Type} {p : α → Bool} {xs : List α} {x : α} (hx : x ∈ xs)
    (hp : p x = true) (h : ∀ y ∈ xs, p y = true → y = x) : xs.find? p = some x := by
  cases hf : xs.find? p with
  | none => exact absurd hp (List.find?_eq_none.1 hf x hx)
  | some y => rw [h y (List.mem_of_find?_eq_some hf) (List.find?_some hf)]

structure Heading where
  name : String
  «alias» : Option String
deriving DecidableEq, Repr

namespace Heading

/-- The column that holds the field once its schema has been compiled. -/
def column (h : Heading) : String := h.alias.getD h.name

/-- A heading whose alias is its name. -/
def plain (name : String) : Heading := ⟨name, some name⟩

@[simp] theorem column_plain (name : String) : (plain name).column = name := rfl

/-- A name stands for one heading. -/
def Consistent (hs : List Heading) : Prop := ∀ h ∈ hs, ∀ g ∈ hs, g.name = h.name → g = h

def Aliased (hs : List Heading) : Prop := ∀ h ∈ hs, h.alias = some h.column

theorem Consistent.find? {hs : List Heading} (hc : Consistent hs) {h : Heading} (hmem : h ∈ hs) :
    hs.find? (·.name = h.name) = some h :=
  find?_eq_some_of_unique hmem (by simp) fun g hg hname =>
    hc h hmem g hg (of_decide_eq_true hname)

theorem Consistent.filter {hs : List Heading} (hc : Consistent hs) (p : Heading → Bool) :
    Consistent (hs.filter p) := by
  intro h hmem g gmem
  exact hc h (List.mem_filter.1 hmem).1 g (List.mem_filter.1 gmem).1

/-- A heading with a new name can be added. -/
theorem Consistent.append_plain {hs : List Heading} (h : Consistent hs) {name : String}
    (hne : ∀ x ∈ hs, x.name ≠ name) : Consistent (hs ++ [plain name]) := by
  intro x hx y hy hname
  rcases List.mem_append.1 hx with hx | hx <;> rcases List.mem_append.1 hy with hy | hy
  · exact h x hx y hy hname
  · rw [List.mem_singleton.1 hy] at hname
    exact absurd hname.symm (hne x hx)
  · rw [List.mem_singleton.1 hx] at hname
    exact absurd hname (hne y hy)
  · rw [List.mem_singleton.1 hx, List.mem_singleton.1 hy]

end Heading

def Dimension.heading (d : Dimension) : Heading := ⟨d.name, d.alias⟩

def Measure.heading (m : Measure) : Heading := ⟨m.name, m.alias⟩

namespace TableSchema

/-- The headings of the dimensions of a schema. -/
def headings (s : TableSchema) : List Heading := s.dimensions.map (·.heading)

/-- The headings of the measures of a schema. -/
def measureHeadings (s : TableSchema) : List Heading := s.measures.map (·.heading)

theorem find?_headings (s : TableSchema) (name : String) :
    s.headings.find? (·.name = name) = (s.dimension? name).map (·.heading) := by
  rw [headings, List.find?_map]
  rfl

theorem find?_measureHeadings (s : TableSchema) (name : String) :
    s.measureHeadings.find? (·.name = name) = (s.measure? name).map (·.heading) := by
  rw [measureHeadings, List.find?_map]
  rfl

end TableSchema

/-! ## Selected names -/

/-- The name that a member is selected under, if the schemas have it. -/
def selectedName (style : KeyStyle) (schemas : List TableSchema) (member : String) :
    Option String :=
  (findField schemas member).map fun field => style.columnName member field.alias

theorem selectedName_of_field {style : KeyStyle} {schemas : List TableSchema} {member : String}
    {field : Field} {a : String} (hf : findField schemas member = some field)
    (ha : field.alias = some a) : selectedName style schemas member = some a := by
  simp [selectedName, hf, KeyStyle.columnName, ha]

theorem selectedName_of_heading {s : TableSchema} (hdot : '.' ∉ s.name.toList) {name : String}
    {h : Heading} (hf : s.headings.find? (·.name = name) = some h) (ha : h.alias = some h.column)
    (style : KeyStyle) (rest : List TableSchema) :
    selectedName style (s :: rest) (Member.qualify s.name name) = some h.column := by
  rw [TableSchema.find?_headings] at hf
  obtain ⟨d, hd, rfl⟩ := Option.map_eq_some_iff.1 hf
  exact selectedName_of_field (findField_cons hdot (TableSchema.field?_of_dimension hd) rest) ha

theorem selectedName_of_measureHeading {s : TableSchema} (hdot : '.' ∉ s.name.toList)
    {name : String} {h : Heading} (hd : s.headings.find? (·.name = name) = none)
    (hf : s.measureHeadings.find? (·.name = name) = some h) (ha : h.alias = some h.column)
    (style : KeyStyle) (rest : List TableSchema) :
    selectedName style (s :: rest) (Member.qualify s.name name) = some h.column := by
  rw [TableSchema.find?_headings, Option.map_eq_none_iff] at hd
  rw [TableSchema.find?_measureHeadings] at hf
  obtain ⟨m, hm, rfl⟩ := Option.map_eq_some_iff.1 hf
  have hfield : s.field? name = some (.measure m) := by
    simp [TableSchema.field?, hd, hm]
  exact selectedName_of_field (findField_cons hdot hfield rest) ha

/-- Every dimension of a schema with consistent headings is selected under its own column. -/
theorem selectedName_headings {s : TableSchema} (hdot : '.' ∉ s.name.toList)
    (hc : Heading.Consistent s.headings) (ha : Heading.Aliased s.headings) (style : KeyStyle)
    (rest : List TableSchema) :
    s.headings.map (fun h => selectedName style (s :: rest) (Member.qualify s.name h.name)) =
      (s.headings.map Heading.column).map some := by
  rw [List.map_map]
  apply List.map_congr_left
  intro h hmem
  exact selectedName_of_heading hdot (hc.find? hmem) (ha h hmem) style rest

/-! ## Compiled statements -/

namespace Select

/-- The names of the columns that a statement puts out. -/
def names (s : Select) : List String := s.columns.map (·.label.name)

theorem selectedName_of_projection {style : KeyStyle} {schemas : List TableSchema}
    {member : String} {p : Projection} (h : Projection.ofMember style schemas member = .ok p) :
    some p.label.name = selectedName style schemas member := by
  obtain ⟨field, hf, rfl⟩ := Projection.ofMember_eq_ok.1 h
  simp [selectedName, hf, Label.ofMember]

theorem ofQuery_ok {style : KeyStyle} {q : Query} {schemas : List TableSchema}
    {statement : Select} (h : ofQuery style q schemas = .ok statement) :
    sourceOf q (schemasFor q schemas) = .ok statement.source ∧
      (q.dimensions ++ q.measures).map (selectedName style (schemasFor q schemas)) =
        statement.names.map some := by
  obtain ⟨parts⟩ := ofQuery_parts h
  have hdims := map_of_mapM_ok parts.projects fun _ _ _ h => selectedName_of_projection h
  have hmeas := map_of_mapM_ok parts.aggregates fun _ _ _ h => selectedName_of_projection h
  refine ⟨parts.source, ?_⟩
  rw [List.map_append, ← hdims, ← hmeas, names, parts.columns]
  simp [Projection.column, Function.comp_def]

theorem schemasFor_of_no_filters {q : Query} (h : q.filters = []) (schemas : List TableSchema) :
    schemasFor q schemas = schemas := by
  unfold schemasFor
  split
  · rfl
  · simp [usedSchemas, h]

end Select

namespace Compiler

/-- The columns of the statement that a call stands for. -/
def Answered.columns (style : KeyStyle) (a : Answered) : List String :=
  match Select.ofQuery style a.call.query a.call.schemas with
  | .ok statement => statement.names
  | .error _ => []

theorem Answered.columns_of_ok {style : KeyStyle} {a : Answered} {statement : Select}
    (h : Select.ofQuery style a.call.query a.call.schemas = .ok statement) :
    a.columns style = statement.names := by
  simp [columns, h]

end Compiler
end SemanticLayer
