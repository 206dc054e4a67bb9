import SemanticLayer.Resolution.Config
import SemanticLayer.Proofs.Text

/-!
# SemanticLayer.Proofs.Names

Laws of the names that members and resolved columns go by, and of finding a field by its name.

* A safe key has no dot, so that `split_qualify` cuts `table.key` where it was joined.
* `findField_qualify` looks a field up in the schemas of its table.
-/

namespace SemanticLayer
namespace Member

theorem toList_safeKey (member : String) :
    (safeKey member).toList = Text.expand '.' ['_', '_'] member.toList := by
  simp [safeKey]

theorem dot_not_mem_safeKey (member : String) : '.' ∉ (safeKey member).toList := by
  intro h
  rw [toList_safeKey] at h
  rcases Text.mem_expand h with h | ⟨hne, _⟩
  · simp at h
  · exact hne rfl

theorem safeKey_of_no_dot {member : String} (h : '.' ∉ member.toList) :
    safeKey member = member := by
  rw [safeKey, Text.expand_of_not_mem h, String.ofList_toList]

@[simp] theorem safeKey_safeKey (member : String) : safeKey (safeKey member) = safeKey member :=
  safeKey_of_no_dot (dot_not_mem_safeKey member)

theorem safeKey_append (a b : String) : safeKey (a ++ b) = safeKey a ++ safeKey b := by
  apply String.toList_inj.1
  simp [toList_safeKey, Text.expand_append]

theorem safeKey_qualify (table field : String) :
    safeKey (qualify table field) = safeKey table ++ "__" ++ safeKey field := by
  have hdot : safeKey "." = "__" := by decide
  rw [qualify, safeKey_append, safeKey_append, hdot]

theorem split_qualify {table : String} (h : '.' ∉ table.toList) (field : String) :
    split (qualify table field) = (table, field) := by
  have hlist : (qualify table field).toList = table.toList ++ '.' :: field.toList := by
    simp [qualify]
  rw [split, hlist, Text.cutAt_append h]
  simp

/-- A member with a dot is its table and its field joined again. -/
theorem qualify_split {member : String} (h : '.' ∈ member.toList) :
    qualify (split member).1 (split member).2 = member ∧ '.' ∉ (split member).1.toList := by
  rw [split]
  cases hcut : Text.cutAt '.' member.toList with
  | none => exact absurd h (Text.cutAt_eq_none hcut)
  | some parts =>
    obtain ⟨hlist, hdot⟩ := Text.cutAt_eq_some hcut
    refine ⟨String.toList_inj.1 ?_, by simpa using hdot⟩
    simp [qualify, hlist]

theorem split_of_no_dot {member : String} (h : '.' ∉ member.toList) :
    split member = ("", member) := by
  rw [split]
  cases hcut : Text.cutAt '.' member.toList with
  | none => rfl
  | some parts =>
    rw [(Text.cutAt_eq_some hcut).1] at h
    simp at h

end Member

theorem dot_not_mem_baseName : '.' ∉ baseName.toList := by decide

theorem dot_not_mem_rowIdName : '.' ∉ rowIdName.toList := by decide

@[simp] theorem safeKey_rowIdName : Member.safeKey rowIdName = rowIdName :=
  Member.safeKey_of_no_dot dot_not_mem_rowIdName

/-! ## Column configs -/

namespace ColumnConfig

theorem dot_not_mem_safeName (c : ColumnConfig) : '.' ∉ c.safeName.toList :=
  Member.dot_not_mem_safeKey c.name

theorem resolvedName_eq (c : ColumnConfig) (column : String) :
    c.resolvedName column = c.safeName ++ "__" ++ Member.safeKey column :=
  Member.safeKey_qualify c.name column

/-- The config with its column under its safe name. -/
def keyed (c : ColumnConfig) : ColumnConfig := { c with name := c.safeName }

@[simp] theorem safeName_keyed (c : ColumnConfig) : c.keyed.safeName = c.safeName :=
  Member.safeKey_safeKey c.name

@[simp] theorem resolvedName_keyed (c : ColumnConfig) (column : String) :
    c.keyed.resolvedName column = c.resolvedName column := by
  rw [resolvedName_eq, resolvedName_eq, safeName_keyed]

end ColumnConfig

namespace ResolutionConfig

theorem columnConfigs_safeKeyed (config : ResolutionConfig) :
    config.safeKeyed.columnConfigs = config.columnConfigs.map ColumnConfig.keyed := rfl

theorem columnConfig?_safeKeyed (config : ResolutionConfig) (member : String) :
    config.safeKeyed.columnConfig? member =
      (config.columnConfig? member).map ColumnConfig.keyed := by
  have hname : ((fun c => decide (c.safeName = Member.safeKey member)) ∘ ColumnConfig.keyed) =
      fun c => decide (c.safeName = Member.safeKey member) := by
    funext c
    simp
  rw [columnConfig?, columnConfigs_safeKeyed, List.find?_map, hname, columnConfig?]

theorem nodup_safeKeyed (config : ResolutionConfig)
    (h : (config.columnConfigs.map (·.safeName)).Nodup) :
    (config.safeKeyed.columnConfigs.map (·.safeName)).Nodup := by
  rw [columnConfigs_safeKeyed, List.map_map]
  simpa [Function.comp_def] using h

theorem columnConfig?_safeKey (config : ResolutionConfig) (member : String) :
    config.columnConfig? (Member.safeKey member) = config.columnConfig? member := by
  simp [columnConfig?]

theorem columnConfig?_eq_some {config : ResolutionConfig} {member : String} {c : ColumnConfig}
    (h : config.columnConfig? member = some c) :
    c ∈ config.columnConfigs ∧ c.safeName = Member.safeKey member := by
  refine ⟨List.mem_of_find?_eq_some h, ?_⟩
  simpa using List.find?_some h

theorem columnConfig?_eq_none {config : ResolutionConfig} {member : String}
    (h : config.columnConfig? member = none) :
    ∀ c ∈ config.columnConfigs, c.safeName ≠ Member.safeKey member := by
  intro c hc he
  have := List.find?_eq_none.1 h c hc
  simp [he] at this

end ResolutionConfig

/-! ## Finding fields -/

namespace TableSchema

theorem field?_of_dimension {s : TableSchema} {name : String} {d : Dimension}
    (h : s.dimension? name = some d) : s.field? name = some (.dimension d) := by
  simp [field?, h]

theorem dimension?_eq_some {s : TableSchema} {name : String} {d : Dimension}
    (h : s.dimension? name = some d) : d ∈ s.dimensions ∧ d.name = name :=
  ⟨List.mem_of_find?_eq_some h, by simpa using List.find?_some h⟩

theorem measure?_eq_some {s : TableSchema} {name : String} {m : Measure}
    (h : s.measure? name = some m) : m ∈ s.measures ∧ m.name = name :=
  ⟨List.mem_of_find?_eq_some h, by simpa using List.find?_some h⟩

/-- The fields of a schema, dimensions first. -/
def fields (s : TableSchema) : List Field :=
  s.dimensions.map .dimension ++ s.measures.map .measure

theorem field?_eq_some {s : TableSchema} {name : String} {field : Field}
    (h : s.field? name = some field) : field ∈ s.fields ∧ field.name = name := by
  rw [field?] at h
  split at h
  · rename_i d hd
    cases h
    obtain ⟨hmem, hname⟩ := dimension?_eq_some hd
    exact ⟨List.mem_append_left _ (List.mem_map_of_mem hmem), hname⟩
  · obtain ⟨m, hm, rfl⟩ := Option.map_eq_some_iff.1 h
    obtain ⟨hmem, hname⟩ := measure?_eq_some hm
    exact ⟨List.mem_append_right _ (List.mem_map_of_mem hmem), hname⟩

end TableSchema

theorem findField_eq_some {schemas : List TableSchema} {member : String} {field : Field}
    (h : findField schemas member = some field) :
    ∃ s ∈ schemas, s.name = (Member.split member).1 ∧ field ∈ s.fields ∧
      field.name = (Member.split member).2 := by
  obtain ⟨s, hs, hf⟩ := List.exists_of_findSome?_eq_some h
  obtain ⟨hs, hname⟩ := List.mem_filter.1 hs
  obtain ⟨hmem, hfield⟩ := TableSchema.field?_eq_some hf
  exact ⟨s, hs, of_decide_eq_true hname, hmem, hfield⟩

theorem findField_qualify {table : String} (h : '.' ∉ table.toList) (schemas : List TableSchema)
    (field : String) :
    findField schemas (Member.qualify table field) =
      (schemas.filter (·.name = table)).findSome? (·.field? field) := by
  simp [findField, Member.split_qualify h]

theorem findField_cons {s : TableSchema} (h : '.' ∉ s.name.toList) {name : String} {field : Field}
    (hf : s.field? name = some field) (rest : List TableSchema) :
    findField (s :: rest) (Member.qualify s.name name) = some field := by
  simp [findField_qualify h, hf]

theorem findField_cons_of_ne {s : TableSchema} {table : String} (h : '.' ∉ table.toList)
    (hne : s.name ≠ table) (rest : List TableSchema) (name : String) :
    findField (s :: rest) (Member.qualify table name) =
      findField rest (Member.qualify table name) := by
  simp [findField_qualify h, hne]

end SemanticLayer
