import SemanticLayer.Proofs.Base
import SemanticLayer.Proofs.Dictionary

/-!
# SemanticLayer.Proofs.Lookups

The lookup schemas of a config: one for each column, under the column's safe name, with a plain
heading for each resolution column (`lookupSchema_ok`). As long as the safe names differ, a column
config finds its own lookup schema and no other (`filter_lookupSchemas`).
-/

namespace SemanticLayer

namespace Heading

/-- Headings whose aliases are made from their names stand for one column each. -/
theorem consistent_of_alias {hs : List Heading} {k : String → String}
    (h : ∀ x ∈ hs, x.alias = some (k x.name)) : Consistent hs := by
  intro x hx y hy hname
  cases x
  cases y
  simp only [mk.injEq]
  refine ⟨hname, ?_⟩
  have hx' := h _ hx
  have hy' := h _ hy
  simp only at hname hx' hy'
  rw [hx', hy', hname]

theorem aliased_of_alias {hs : List Heading} {k : String → String}
    (h : ∀ x ∈ hs, x.alias = some (k x.name)) : Aliased hs := by
  intro x hx
  simp [column, h x hx]

end Heading

namespace Resolution

/-- The headings that a column of keys is resolved to. -/
def lookupHeadings (c : ColumnConfig) : List Heading :=
  c.resolutionColumns.map fun column => .plain (c.resolvedName column)

theorem lookupDimension_ok {source : TableSchema} {c : ColumnConfig} {column : String}
    {d : Dimension} (h : lookupDimension source c column = .ok d) :
    d.heading = .plain (c.resolvedName column) := by
  simp only [lookupDimension] at h
  split at h
  · cases h
  · cases h
    rfl

theorem lookupSchema_ok {config : ResolutionConfig} {c : ColumnConfig} {lookup : TableSchema}
    (h : lookupSchema config c = .ok lookup) :
    ∃ source dimensions, config.sourceSchema? c.source = some source ∧
      dimensions.map Dimension.heading = lookupHeadings c ∧
      lookup = { name := c.safeName, sql := source.sql, dimensions } := by
  rw [lookupSchema] at h
  split at h
  · cases h
  · rename_i source hsource
    obtain ⟨dimensions, hdims, h⟩ := bind_eq_ok.1 h
    cases h
    exact ⟨source, dimensions, hsource,
      map_of_mapM_ok hdims fun _ _ _ hd => lookupDimension_ok hd, rfl⟩

theorem name_of_lookupSchema {config : ResolutionConfig} {c : ColumnConfig} {lookup : TableSchema}
    (h : lookupSchema config c = .ok lookup) : lookup.name = c.safeName := by
  obtain ⟨_, _, _, _, rfl⟩ := lookupSchema_ok h
  rfl

theorem headings_of_lookupSchema {config : ResolutionConfig} {c : ColumnConfig}
    {lookup : TableSchema} (h : lookupSchema config c = .ok lookup) :
    lookup.headings = lookupHeadings c := by
  obtain ⟨_, _, _, hd, rfl⟩ := lookupSchema_ok h
  exact hd

theorem measures_of_lookupSchemas {config : ResolutionConfig} {lookups : List TableSchema}
    (h : lookupSchemas config = .ok lookups) : ∀ lookup ∈ lookups, lookup.measures = [] := by
  intro lookup hlookup
  obtain ⟨c, -, hok⟩ := exists_of_mem_mapM_ok h hlookup
  obtain ⟨_, _, _, _, rfl⟩ := lookupSchema_ok hok
  rfl

theorem fullyAliased_lookupSchemas {config : ResolutionConfig} {lookups : List TableSchema}
    (h : lookupSchemas config = .ok lookups) : ∀ lookup ∈ lookups, lookup.FullyAliased := by
  intro lookup hlookup
  obtain ⟨c, -, hok⟩ := exists_of_mem_mapM_ok h hlookup
  apply TableSchema.fullyAliased_of_no_measures (measures_of_lookupSchemas h lookup hlookup)
  rw [headings_of_lookupSchema hok]
  intro x hx
  obtain ⟨column, _, rfl⟩ := List.mem_map.1 hx
  rfl

theorem names_of_lookupSchemas {config : ResolutionConfig} {lookups : List TableSchema}
    (h : lookupSchemas config = .ok lookups) :
    lookups.map (·.name) = config.columnConfigs.map (·.safeName) :=
  map_of_mapM_ok h fun _ _ _ hl => name_of_lookupSchema hl

theorem filter_lookupSchemas {config : ResolutionConfig} {lookups : List TableSchema}
    (h : lookupSchemas config = .ok lookups)
    (hdistinct : (config.columnConfigs.map (·.safeName)).Nodup) {c : ColumnConfig}
    (hc : c ∈ config.columnConfigs) :
    ∃ lookup, lookupSchema config c = .ok lookup ∧
      lookups.filter (·.name = c.safeName) = [lookup] := by
  obtain ⟨lookup, hmem, hl⟩ := exists_of_mapM_ok h hc
  refine ⟨lookup, hl, ?_⟩
  rw [← name_of_lookupSchema hl]
  exact filter_eq_singleton (names_of_lookupSchemas h ▸ hdistinct) hmem

theorem filter_lookupSchemas_eq_nil {config : ResolutionConfig} {lookups : List TableSchema}
    (h : lookupSchemas config = .ok lookups) {name : String}
    (hnone : ∀ c ∈ config.columnConfigs, c.safeName ≠ name) :
    lookups.filter (·.name = name) = [] := by
  apply List.filter_eq_nil_iff.2
  intro lookup hmem hname
  have hmem : lookup.name ∈ config.columnConfigs.map (·.safeName) :=
    names_of_lookupSchemas h ▸ List.mem_map_of_mem hmem
  obtain ⟨c, hc, he⟩ := List.mem_map.1 hmem
  exact hnone c hc (he.trans (of_decide_eq_true hname))

/-! ## Selecting from lookup tables -/

/-- Each column config has one lookup schema, which lists the resolved names under the aliases that
`label` gives them. -/
def LabelledLookups (label : String → String) (config : ResolutionConfig)
    (lookups : List TableSchema) : Prop :=
  ∀ c ∈ config.columnConfigs, ∃ lookup, lookup.name = c.safeName ∧
    lookups.filter (·.name = c.safeName) = [lookup] ∧
    lookup.headings = c.resolutionColumns.map fun column =>
      ⟨c.resolvedName column, some (label (c.resolvedName column))⟩

theorem labelledLookups_id {config : ResolutionConfig} {lookups : List TableSchema}
    (h : lookupSchemas config = .ok lookups)
    (hdistinct : (config.columnConfigs.map (·.safeName)).Nodup) :
    LabelledLookups id config lookups := by
  intro c hc
  obtain ⟨lookup, hlookup, hfilter⟩ := filter_lookupSchemas h hdistinct hc
  exact ⟨lookup, name_of_lookupSchema hlookup, hfilter, headings_of_lookupSchema hlookup⟩

theorem headings_applyAliases (aliases : Dictionary) (s : TableSchema) :
    (applyAliases aliases s).headings =
      s.headings.map fun h => ⟨h.name, some ((aliases.get? h.name).getD h.name)⟩ := by
  simp [applyAliases, TableSchema.headings, Dimension.heading, Function.comp_def]

theorem alias_of_mem_applyAliases {aliases : Dictionary} {s : TableSchema} {x : Heading}
    (h : x ∈ (applyAliases aliases s).headings) :
    x.alias = some ((aliases.get? x.name).getD x.name) := by
  rw [headings_applyAliases] at h
  obtain ⟨y, _, rfl⟩ := List.mem_map.1 h
  rfl

theorem consistent_applyAliases (aliases : Dictionary) (s : TableSchema) :
    Heading.Consistent (applyAliases aliases s).headings :=
  Heading.consistent_of_alias (k := fun name => (aliases.get? name).getD name)
    fun _ => alias_of_mem_applyAliases

theorem aliased_applyAliases (aliases : Dictionary) (s : TableSchema) :
    Heading.Aliased (applyAliases aliases s).headings :=
  Heading.aliased_of_alias (k := fun name => (aliases.get? name).getD name)
    fun _ => alias_of_mem_applyAliases

theorem fullyAliased_applyAliases {s : TableSchema} (h : s.measures = [])
    (aliases : Dictionary) : (applyAliases aliases s).FullyAliased :=
  TableSchema.fullyAliased_of_no_measures h (aliased_applyAliases aliases s)

theorem LabelledLookups.applyAliases {config : ResolutionConfig} {lookups : List TableSchema}
    {label : String → String} (h : LabelledLookups label config lookups) (aliases : Dictionary) :
    LabelledLookups (fun name => (aliases.get? name).getD name) config
      (lookups.map (applyAliases aliases)) := by
  intro c hc
  obtain ⟨lookup, hname, hfilter, hheadings⟩ := h c hc
  refine ⟨Resolution.applyAliases aliases lookup, hname, ?_, ?_⟩
  · have hsame : ((fun s : TableSchema => decide (s.name = c.safeName)) ∘
        Resolution.applyAliases aliases) = fun s => decide (s.name = c.safeName) := rfl
    rw [List.filter_map, hsame, hfilter]
    rfl
  · rw [headings_applyAliases, hheadings, List.map_map]
    rfl

/-- A column of a lookup table is selected from that table alone, under its label. -/
theorem selectedName_lookup {label : String → String} {base : TableSchema}
    {config : ResolutionConfig} {lookups : List TableSchema}
    (hlookups : LabelledLookups label config lookups) {c : ColumnConfig}
    (hc : c ∈ config.columnConfigs) (hne : base.name ≠ c.safeName) {column : String}
    (hcolumn : column ∈ c.resolutionColumns) (style : KeyStyle) :
    selectedName style (base :: lookups) (Member.qualify c.safeName (c.resolvedName column)) =
      some (label (c.resolvedName column)) := by
  obtain ⟨lookup, hname, hfilter, hheadings⟩ := hlookups c hc
  have hdot := c.dot_not_mem_safeName
  have halias : ∀ x ∈ lookup.headings, x.alias = some (label x.name) := by
    intro x hx
    rw [hheadings] at hx
    obtain ⟨column, _, rfl⟩ := List.mem_map.1 hx
    rfl
  generalize hn : c.resolvedName column = name
  have hmem : ⟨name, some (label name)⟩ ∈ lookup.headings := by
    rw [hheadings, ← hn]
    exact List.mem_map_of_mem (f := fun column => Heading.mk (c.resolvedName column)
      (some (label (c.resolvedName column)))) hcolumn
  have hfind : lookup.headings.find? (·.name = name) = some ⟨name, some (label name)⟩ :=
    (Heading.consistent_of_alias halias).find? hmem
  have hone := selectedName_of_heading (hname ▸ hdot) hfind rfl style []
  rw [selectedName, hname, findField_qualify hdot] at hone
  rw [selectedName, findField_cons_of_ne hdot hne, findField_qualify hdot, hfilter]
  simpa [hname, Heading.column] using hone

end Resolution
end SemanticLayer
