import SemanticLayer.Proofs.Base

/-!
# SemanticLayer.Proofs.Overrides

What overrides do to a schema. Whether they are accepted depends on their texts alone
(`exists_applyOverrides_iff`), and each field is changed by the overrides of its own name alone, one
after the other (`fields_applyOverrides`, `overrideField_eq_filter`).

* `overrides_commute`: only the order of the overrides of one field matters.
* `overrides_keep_order_and_joins`: what later steps read of a schema is left as it was.
-/

namespace SemanticLayer
namespace SqlOverride

/-! ## One override -/

def onField (o : SqlOverride) : Field → Field
  | .dimension d => .dimension (o.onDimension d)
  | .measure m => .measure (o.onMeasure m)

theorem name_onDimension (o : SqlOverride) (d : Dimension) : (o.onDimension d).name = d.name := by
  rw [onDimension]
  split <;> rfl

theorem name_onMeasure (o : SqlOverride) (m : Measure) : (o.onMeasure m).name = m.name := by
  rw [onMeasure]
  split <;> rfl

@[simp] theorem name_onField (o : SqlOverride) (f : Field) : (o.onField f).name = f.name := by
  cases f with
  | dimension d => exact o.name_onDimension d
  | measure m => exact o.name_onMeasure m

theorem onField_of_ne {o : SqlOverride} {f : Field} (h : f.name ≠ o.fieldName) :
    o.onField f = f := by
  cases f with
  | dimension d =>
    have hd : d.name ≠ o.fieldName := h
    rw [onField, onDimension, if_neg hd]
  | measure m =>
    have hm : m.name ≠ o.fieldName := h
    rw [onField, onMeasure, if_neg hm]

theorem isValid_of_apply {s t : TableSchema} {o : SqlOverride} (h : o.apply s = .ok t) :
    o.isValid = true := by
  rw [SqlOverride.apply] at h
  split at h
  · assumption
  · cases h

theorem exists_apply {o : SqlOverride} (h : o.isValid = true) (s : TableSchema) :
    ∃ t, o.apply s = .ok t := by
  rw [SqlOverride.apply, if_pos h]
  exact ⟨_, rfl⟩

theorem fields_apply {s t : TableSchema} {o : SqlOverride} (h : o.apply s = .ok t) :
    t.fields = s.fields.map o.onField := by
  rw [SqlOverride.apply, if_pos (isValid_of_apply h)] at h
  cases h
  simp only [TableSchema.fields, List.map_append, List.map_map]
  rfl

end SqlOverride

/-! ## A list of overrides -/

/-- Overrides are accepted for what their texts are, not for what the schema holds. -/
theorem exists_applyOverrides_iff {overrides : List SqlOverride} {s : TableSchema} :
    (∃ t, applyOverrides s overrides = .ok t) ↔ ∀ o ∈ overrides, o.isValid = true := by
  induction overrides generalizing s with
  | nil => simp [applyOverrides, pure, Except.pure]
  | cons o rest ih =>
    rw [List.forall_mem_cons]
    constructor
    · rintro ⟨t, h⟩
      obtain ⟨next, hnext, h⟩ := applyOverrides_cons_ok.1 h
      exact ⟨SqlOverride.isValid_of_apply hnext, ih.1 ⟨t, h⟩⟩
    · rintro ⟨ho, hrest⟩
      obtain ⟨next, hnext⟩ := SqlOverride.exists_apply ho s
      obtain ⟨t, h⟩ := ih.2 hrest
      exact ⟨t, applyOverrides_cons_ok.2 ⟨next, hnext, h⟩⟩

/-- The field after the overrides. -/
def overrideField (overrides : List SqlOverride) (f : Field) : Field :=
  overrides.foldl (fun f o => o.onField f) f

theorem fields_applyOverrides {overrides : List SqlOverride} {s t : TableSchema}
    (h : applyOverrides s overrides = .ok t) :
    t.fields = s.fields.map (overrideField overrides) := by
  induction overrides generalizing s with
  | nil =>
    cases h
    exact (List.map_id _).symm
  | cons o rest ih =>
    obtain ⟨next, hnext, h⟩ := applyOverrides_cons_ok.1 h
    rw [ih h, SqlOverride.fields_apply hnext, List.map_map]
    rfl

/-- The overrides of other fields do nothing to a field. -/
theorem overrideField_eq_filter (overrides : List SqlOverride) (f : Field) :
    overrideField overrides f =
      overrideField (overrides.filter fun o => o.fieldName = f.name) f := by
  induction overrides generalizing f with
  | nil => rfl
  | cons o rest ih =>
    have hstep : overrideField (o :: rest) f = overrideField rest (o.onField f) := rfl
    rw [hstep, ih, o.name_onField]
    by_cases hname : o.fieldName = f.name
    · rw [List.filter_cons_of_pos (by simpa using hname)]
      rfl
    · rw [List.filter_cons_of_neg (by simpa using hname),
        SqlOverride.onField_of_ne (Ne.symm hname)]

/-! ## Issues -/

/-- Issues with a priority, which is also summed up, and the tags that go with it. -/
def issuesBase : TableSchema where
  name := baseName
  sql := "SELECT 1"
  measures := [{ name := "issues__priority", sql := "SUM(p)", type := .number }]
  dimensions :=
    [{ name := "issues__priority", sql := "__base_query.\"Priority\"", type := .number,
       «alias» := some "Priority" },
     { name := "issues__priority_tags", sql := "__base_query.\"issues__priority_tags\"",
       type := .numberArray, modifier := some { flattenArray := true } },
     { name := "issues__id", sql := "__base_query.\"issues__id\"", type := .number }]
  joins := [{ sql := "__base_query.\"Priority\" = priorities.id" }]

def highestOverride : SqlOverride where
  fieldName := "issues__priority"
  overrideSql := "greatest(issues.priority, issues.priority_tags[1])"
  type := .number

def textOverride : SqlOverride where
  fieldName := "issues__priority"
  overrideSql := "CAST(issues.priority AS VARCHAR)"
  type := .string

def countOverride : SqlOverride where
  fieldName := "issues__priority_tags"
  overrideSql := "len(issues.priority_tags)"
  type := .number

/-! ## The order of overrides -/

/-- The same overrides, with those of each field in the same order. -/
structure Reorders (os os' : List SqlOverride) : Prop where
  perm : os.Perm os'
  sameField : ∀ field, os.filter (fun o => o.fieldName = field) =
    os'.filter fun o => o.fieldName = field

theorem overrideField_reordered {os os' : List SqlOverride} (h : Reorders os os') (f : Field) :
    overrideField os f = overrideField os' f := by
  rw [overrideField_eq_filter, h.sameField, ← overrideField_eq_filter]

/-- A schema is known by its outline and its fields. -/
theorem TableSchema.eq_of_fields {s t : TableSchema} (houtline : s.outline = t.outline)
    (hfields : s.fields = t.fields) : s = t := by
  have hname := congrArg TableSchema.name houtline
  have hsql := congrArg TableSchema.sql houtline
  have hjoins := congrArg TableSchema.joins houtline
  have hlength := congrArg (fun u => u.dimensions.length) houtline
  simp only [outline, List.length_map] at hname hsql hjoins hlength
  -- The outline tells where the dimensions end.
  obtain ⟨hdimensions, hmeasures⟩ := List.append_inj hfields (by simpa using hlength)
  rw [List.map_inj_right fun _ _ => Field.dimension.inj] at hdimensions
  rw [List.map_inj_right fun _ _ => Field.measure.inj] at hmeasures
  cases s
  cases t
  simp_all

/-- Overrides of different fields commute: a list that is reordered in this way is accepted if and
only if it was accepted before, and gives the same schema. -/
theorem overrides_commute {os os' : List SqlOverride} (h : Reorders os os') (s : TableSchema) :
    ((∃ t, applyOverrides s os = .ok t) ↔ ∃ t, applyOverrides s os' = .ok t) ∧
      ∀ t t', applyOverrides s os = .ok t → applyOverrides s os' = .ok t' → t = t' := by
  constructor
  · rw [exists_applyOverrides_iff, exists_applyOverrides_iff]
    exact ⟨fun hvalid o ho => hvalid o (h.perm.mem_iff.2 ho),
      fun hvalid o ho => hvalid o (h.perm.mem_iff.1 ho)⟩
  · -- The overrides of one field compose in their order, and each field sees its own ones only.
    intro t t' ht ht'
    apply TableSchema.eq_of_fields
    · rw [outline_applyOverrides ht, outline_applyOverrides ht']
    · rw [fields_applyOverrides ht, fields_applyOverrides ht']
      exact List.map_congr_left fun f _ => overrideField_reordered h f

theorem count_reordered : Reorders [highestOverride, textOverride, countOverride]
    [highestOverride, countOverride, textOverride] where
  perm := .cons _ (.swap _ _ _)
  sameField field := by
    by_cases hcount : countOverride.fieldName = field
    · subst hcount
      decide +kernel
    · simp [List.filter_cons, hcount]

/-- The tags may be counted between the two overrides of the priority or after them. -/
theorem count_override_commutes :
    Reorders [highestOverride, textOverride, countOverride]
      [highestOverride, countOverride, textOverride] ∧
    ∃ t, applyOverrides issuesBase [highestOverride, textOverride, countOverride] = .ok t ∧
      applyOverrides issuesBase [highestOverride, countOverride, textOverride] = .ok t ∧
      t ≠ issuesBase := by
  obtain ⟨hiff, hsame⟩ := overrides_commute count_reordered issuesBase
  obtain ⟨t, ht⟩ : ∃ t, applyOverrides issuesBase [highestOverride, textOverride, countOverride] =
      .ok t := exists_applyOverrides_iff.2 (by decide +kernel)
  obtain ⟨t', ht'⟩ := hiff.1 ⟨t, ht⟩
  refine ⟨count_reordered, t, ht, ?_, ?_⟩
  · rw [hsame t t' ht ht']
    exact ht'
  · rintro rfl
    have hchanged : (applyOverrides issuesBase
        [highestOverride, textOverride, countOverride]).toOption ≠ some issuesBase := by
      decide +kernel
    exact hchanged (by rw [ht]; rfl)

/-! ## What later steps read -/

namespace Resolution

theorem orderColumn_outline (s : TableSchema) (member : String) :
    orderColumn s.outline.dimensions member = orderColumn s.dimensions member := by
  have hheadings : s.outline.dimensions.map (·.heading) = s.dimensions.map (·.heading) :=
    s.headings_outline
  rw [orderColumn_eq_headings, hheadings, ← orderColumn_eq_headings]

theorem rowNumberSql_outline (order : List OrderEntry) (s : TableSchema) (base : String) :
    rowNumberSql order s.outline.dimensions base = rowNumberSql order s.dimensions base := by
  have hkeys : rowOrderKey base s.outline.dimensions = rowOrderKey base s.dimensions := by
    funext entry
    rw [rowOrderKey, rowOrderKey, orderColumn_outline]
  rw [rowNumberSql, rowNumberSql, hkeys]

theorem lookupPaths_outline (s : TableSchema) (configs : List ColumnConfig) :
    lookupPaths s.outline configs = lookupPaths s configs := by
  have hhop : lookupHop s.outline = lookupHop s := by
    funext c
    simp only [lookupHop, TableSchema.dimension?, TableSchema.outline, List.find?_map,
      Function.comp_def]
    cases s.dimensions.find? (·.name = c.safeName) <;> rfl
  rw [lookupPaths, lookupPaths, hhop]

/-- The columns of a schema over compiled SQL: their names, what they read and their aliases. -/
def wrapperColumns (sql : String) (s : TableSchema) : List (String × String × Option String) :=
  (wrapperSchema sql s).dimensions.map fun d => (d.name, d.sql, d.alias)

theorem wrapperColumns_outline (sql : String) (s : TableSchema) :
    wrapperColumns sql s.outline = wrapperColumns sql s := by
  simp [wrapperColumns, wrapperSchema, TableSchema.outline, Function.comp_def]

end Resolution

/-- What overrides leave as it was. -/
structure KeepsOutline (overrides : List SqlOverride) (s t : TableSchema) : Prop where
  name : t.name = s.name
  sql : t.sql = s.sql
  joins : t.joins = s.joins
  dimensions : t.dimensions.map (fun d => (d.name, d.alias, d.modifier)) =
    s.dimensions.map fun d => (d.name, d.alias, d.modifier)
  measures : t.measures.map (fun m => (m.name, m.alias)) =
    s.measures.map fun m => (m.name, m.alias)
  /-- A field that no override names stays in its place. -/
  others : ∀ (i : Nat) (f : Field), s.fields[i]? = some f →
    (∀ o ∈ overrides, o.fieldName ≠ f.name) → t.fields[i]? = some f

theorem overrideField_of_ne {overrides : List SqlOverride} {f : Field}
    (h : ∀ o ∈ overrides, o.fieldName ≠ f.name) : overrideField overrides f = f := by
  have hnone : (overrides.filter fun o => o.fieldName = f.name) = [] := by
    apply List.filter_eq_nil_iff.2
    simpa using h
  rw [overrideField_eq_filter, hnone]
  rfl

theorem keepsOutline_applyOverrides {overrides : List SqlOverride} {s t : TableSchema}
    (h : applyOverrides s overrides = .ok t) : KeepsOutline overrides s t := by
  have houtline := outline_applyOverrides h
  have hdimensions : ∀ u : TableSchema,
      u.outline.dimensions.map (fun d => (d.name, d.alias, d.modifier)) =
        u.dimensions.map fun d => (d.name, d.alias, d.modifier) := by
    intro u
    simp [TableSchema.outline, Function.comp_def]
  have hmeasures : ∀ u : TableSchema, u.outline.measures.map (fun m => (m.name, m.alias)) =
      u.measures.map fun m => (m.name, m.alias) := by
    intro u
    simp [TableSchema.outline, Function.comp_def]
  have hname := congrArg TableSchema.name houtline
  have hsql := congrArg TableSchema.sql houtline
  have hjoins := congrArg TableSchema.joins houtline
  refine ⟨hname, hsql, hjoins, ?_, ?_, ?_⟩
  · rw [← hdimensions, houtline, hdimensions]
  · rw [← hmeasures, houtline, hmeasures]
  · intro i f hf hother
    rw [fields_applyOverrides h, List.getElem?_map, hf, Option.map_some,
      overrideField_of_ne hother]

/-- Overrides change neither the row order nor the joins: the row id, the hops to the lookup tables
and the columns that a later statement reads are those of the schema before. -/
theorem overrides_keep_order_and_joins {overrides : List SqlOverride} {s t : TableSchema}
    (h : applyOverrides s overrides = .ok t) :
    KeepsOutline overrides s t ∧
    (∀ order base, Resolution.rowNumberSql order t.dimensions base =
      Resolution.rowNumberSql order s.dimensions base) ∧
    (∀ configs, Resolution.lookupPaths t configs = Resolution.lookupPaths s configs) ∧
    ∀ sql, Resolution.wrapperColumns sql t = Resolution.wrapperColumns sql s := by
  have houtline := outline_applyOverrides h
  refine ⟨keepsOutline_applyOverrides h, ?_, ?_, ?_⟩
  · intro order base
    rw [← Resolution.rowNumberSql_outline order t, houtline, Resolution.rowNumberSql_outline]
  · intro configs
    rw [← Resolution.lookupPaths_outline t, houtline, Resolution.lookupPaths_outline]
  · intro sql
    rw [← Resolution.wrapperColumns_outline sql t, houtline, Resolution.wrapperColumns_outline]

/-- The priority is sorted and joined by its own column, although it was made a text. -/
theorem priority_order_and_join_kept :
    ∃ t, applyOverrides issuesBase [highestOverride, textOverride] = .ok t ∧
      (t.dimension? "issues__priority").map (·.type) = some .string ∧
      Resolution.rowNumberSql [⟨"issues.priority", .ascending⟩] t.dimensions baseName =
        "row_number() OVER (ORDER BY __base_query.\"Priority\" ASC)" ∧
      Resolution.lookupPaths t [.ofType "issues.priority" .number "priorities" "id" ["name"]] =
        [[.join ⟨baseName, "issues__priority", "Priority"⟩]] ∧
      Resolution.wrapperColumns "SELECT 2" t =
        [("issues__priority", "__base_query.\"Priority\"", some "Priority"),
         ("issues__priority_tags", "__base_query.\"issues__priority_tags\"", none),
         ("issues__id", "__base_query.\"issues__id\"", none),
         ("issues__priority", "__base_query.\"issues__priority\"", none)] ∧
      t.fields[2]? = issuesBase.fields[2]? := by
  obtain ⟨t, ht⟩ : ∃ t, applyOverrides issuesBase [highestOverride, textOverride] = .ok t :=
    exists_applyOverrides_iff.2 (by decide +kernel)
  obtain ⟨hkeeps, horder, hpaths, hcolumns⟩ := overrides_keep_order_and_joins ht
  have htype : ((applyOverrides issuesBase [highestOverride, textOverride]).toOption.bind
      (·.dimension? "issues__priority")).map (·.type) = some .string := by decide +kernel
  rw [ht] at htype
  refine ⟨t, ht, htype, ?_, ?_, ?_, hkeeps.others 2 _ rfl (by decide)⟩
  · rw [horder]
    decide +kernel
  · rw [hpaths]
    decide +kernel
  · rw [hcolumns]
    decide +kernel

end SemanticLayer
