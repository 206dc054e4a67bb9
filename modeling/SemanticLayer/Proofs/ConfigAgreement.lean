import SemanticLayer.Proofs.CallProtocol
import SemanticLayer.Proofs.OutputNames

/-!
# SemanticLayer.Proofs.ConfigAgreement

What resolution reads of its configuration.

Two configs agree if their columns are the same up to the writing of their names, and each column
finds the same lookup table in both. After the base schema is made, no phase can tell such configs
apart (`resolve_congr` and its like), so the whole run is the same if the base schemas declare the
same joins (`compile_congr`). `compile_without_irrelevant` is one use: columns that are not
projected and lookup tables that no column names can be left out.
-/

namespace SemanticLayer

/-! ## Leaving elements out -/

/-- `ys` is `xs` without some elements of which `p` holds. -/
inductive LeavesOut {α : Type} (p : α → Prop) : List α → List α → Prop where
  | nil : LeavesOut p [] []
  | keep (x : α) {xs ys : List α} : LeavesOut p xs ys → LeavesOut p (x :: xs) (x :: ys)
  | leave {x : α} {xs ys : List α} : p x → LeavesOut p xs ys → LeavesOut p (x :: xs) ys

namespace LeavesOut

variable {α : Type} {p : α → Prop} {xs ys : List α} {q : α → Bool}

theorem filter_eq (h : LeavesOut p xs ys) (hq : ∀ x, p x → q x = false) :
    ys.filter q = xs.filter q := by
  induction h with
  | nil => rfl
  | keep x _ ih => rw [List.filter_cons, List.filter_cons, ih]
  | leave hx _ ih => rw [ih, List.filter_cons_of_neg (by simp [hq _ hx])]

theorem find?_eq (h : LeavesOut p xs ys) (hq : ∀ x, p x → q x = false) :
    ys.find? q = xs.find? q := by
  rw [← List.head?_filter, ← List.head?_filter, h.filter_eq hq]

end LeavesOut

/-! ## Agreeing configs -/

namespace ResolutionConfig

/-- The columns of `a` are those of `b`, whichever way their names are written, and they find the
same lookup tables. -/
structure Agrees (a b : ResolutionConfig) : Prop where
  columns : a.columnConfigs.map ColumnConfig.keyed = b.columnConfigs.map ColumnConfig.keyed
  overrides : a.overrides = b.overrides
  sources : ∀ c ∈ a.columnConfigs, a.sourceSchema? c.source = b.sourceSchema? c.source

namespace Agrees

variable {a b : ResolutionConfig} (h : a.Agrees b)

include h

theorem exists_column {c : ColumnConfig} (hc : c ∈ b.columnConfigs) :
    ∃ d ∈ a.columnConfigs, d.keyed = c.keyed := by
  have hmem : c.keyed ∈ a.columnConfigs.map ColumnConfig.keyed :=
    h.columns ▸ List.mem_map_of_mem hc
  exact List.mem_map.1 hmem

theorem source_eq {c : ColumnConfig} (hc : c ∈ b.columnConfigs) :
    a.sourceSchema? c.source = b.sourceSchema? c.source := by
  obtain ⟨d, hd, hkeyed⟩ := h.exists_column hc
  have hsource : d.keyed.source = c.keyed.source := congrArg ColumnConfig.source hkeyed
  change d.source = c.source at hsource
  rw [← hsource]
  exact h.sources d hd

theorem map_eq {α : Type} {f : ColumnConfig → α} (hf : ∀ c : ColumnConfig, f c.keyed = f c) :
    a.columnConfigs.map f = b.columnConfigs.map f := by
  have hcolumns := congrArg (List.map f) h.columns
  simpa only [List.map_map, Function.comp_def, hf] using hcolumns

theorem columnConfig?_eq (member : String) :
    (a.columnConfig? member).map ColumnConfig.keyed =
      (b.columnConfig? member).map ColumnConfig.keyed := by
  rw [← columnConfig?_safeKeyed, ← columnConfig?_safeKeyed, columnConfig?, columnConfig?,
    columnConfigs_safeKeyed, columnConfigs_safeKeyed, h.columns]

theorem isEmpty_eq : a.columnConfigs.isEmpty = b.columnConfigs.isEmpty := by
  have hempty := congrArg List.isEmpty h.columns
  simpa only [List.isEmpty_map] using hempty

theorem hasArrayColumns_eq : a.hasArrayColumns = b.hasArrayColumns := by
  have harrays := congrArg (List.any · id) (h.map_eq (f := (·.isArrayType)) fun _ => rfl)
  simpa only [List.any_map, Function.id_comp, hasArrayColumns] using harrays

theorem arrayNames_eq : a.arrayConfigs.map (·.safeName) = b.arrayConfigs.map (·.safeName) := by
  have hnames : ∀ config : ResolutionConfig, config.arrayConfigs.map (·.safeName) =
      ((config.columnConfigs.map ColumnConfig.keyed).filter (·.isArrayType)).map (·.safeName) := by
    intro config
    rw [List.filter_map, List.map_map]
    exact List.map_congr_left fun c _ => c.safeName_keyed.symm
  rw [hnames, hnames, h.columns]

theorem safeKeyed : a.safeKeyed.Agrees b.safeKeyed where
  columns := by rw [columnConfigs_safeKeyed, columnConfigs_safeKeyed, h.columns]
  overrides := h.overrides
  sources := by
    intro c hc
    obtain ⟨d, hd, rfl⟩ := List.mem_map.1 hc
    exact h.sources d hd

end Agrees
end ResolutionConfig

/-- The request with other columns to resolve and other lookup tables. -/
def Request.withLookups (request : Request) (columns : List ColumnConfig)
    (lookups : List TableSchema) : Request :=
  { request with
    config := { request.config with columnConfigs := columns, tableSchemas := lookups } }

@[simp] theorem Request.projections_withLookups (request : Request) (columns : List ColumnConfig)
    (lookups : List TableSchema) :
    (request.withLookups columns lookups).projections = request.projections := rfl

namespace Resolution

/-! ## The parts of a run -/

section

variable {a b : ResolutionConfig}

theorem lookupSchema_keyed (config : ResolutionConfig) (c : ColumnConfig) :
    lookupSchema config c.keyed = lookupSchema config c := by
  have hdimension : ∀ source, lookupDimension source c.keyed = lookupDimension source c := by
    intro source
    funext column
    rw [lookupDimension, lookupDimension, c.safeName_keyed, c.resolvedName_keyed]
  simp only [lookupSchema, hdimension, ColumnConfig.safeName_keyed]
  rfl

theorem lookupSchemas_congr (h : a.Agrees b) : lookupSchemas a = lookupSchemas b := by
  have hkeyed : ∀ config : ResolutionConfig,
      (config.columnConfigs.map ColumnConfig.keyed).mapM (lookupSchema a) =
        config.columnConfigs.mapM (lookupSchema a) := by
    intro config
    rw [List.mapM_map]
    exact mapM_congr fun c _ => lookupSchema_keyed a c
  calc lookupSchemas a
      = (a.columnConfigs.map ColumnConfig.keyed).mapM (lookupSchema a) := (hkeyed a).symm
    _ = b.columnConfigs.mapM (lookupSchema a) := by rw [h.columns, hkeyed b]
    _ = lookupSchemas b := mapM_congr fun c hc => by
        rw [lookupSchema, lookupSchema, h.source_eq hc]

theorem expandMembers_congr (h : a.Agrees b) (base : String) (projections : List String) :
    expandMembers base a projections = expandMembers base b projections := by
  have hmember : ∀ (config : ResolutionConfig) (p : String), expandMember base config p =
      (((config.columnConfig? p).map ColumnConfig.keyed).map fun c =>
        c.resolutionColumns.map fun column =>
          Member.qualify c.safeName (c.resolvedName column)).getD
            [Member.qualify base (Member.safeKey p)] := by
    intro config p
    rw [expandMember]
    cases config.columnConfig? p with
    | none => rfl
    | some c =>
      simp only [Option.map_some, Option.getD_some, ColumnConfig.safeName_keyed,
        ColumnConfig.resolvedName_keyed]
      rfl
  apply List.flatMap_congr
  intro p _
  rw [hmember, hmember, h.columnConfig?_eq]

theorem lookupPaths_congr (h : a.Agrees b) (base : TableSchema) :
    lookupPaths base a.columnConfigs = lookupPaths base b.columnConfigs :=
  h.map_eq fun c => by rw [lookupHop, lookupHop, c.safeName_keyed]

theorem aliasEntries_congr (h : a.Agrees b) (column given : String) :
    aliasEntries a column given = aliasEntries b column given := by
  rw [← aliasEntries_safeKeyed a, ← aliasEntries_safeKeyed b, aliasEntries, aliasEntries,
    a.columnConfig?_safeKeyed, b.columnConfig?_safeKeyed, h.columnConfig?_eq]
  cases hc : b.columnConfig? column with
  | none => rfl
  | some c =>
    have hsource : a.safeKeyed.sourceSchema? c.keyed.source =
        b.safeKeyed.sourceSchema? c.keyed.source :=
      h.source_eq (c := c) (ResolutionConfig.columnConfig?_eq_some hc).1
    simp only [Option.map_some, hsource]

theorem aliasMap_congr (h : a.Agrees b) (schemas : List TableSchema) :
    aliasMap schemas a = aliasMap schemas b := by
  simp only [aliasMap, aliasEntries_congr h]

theorem flattened_congr (h : a.Agrees b) (s : TableSchema) : flattened a s = flattened b s := by
  rw [flattened, flattened, flagArrays, flagArrays, h.arrayNames_eq]

theorem isResolvedArray_congr (h : a.Agrees b) (name : String) :
    isResolvedArray a name = isResolvedArray b name := by
  have hany : ∀ config : ResolutionConfig, isResolvedArray config name =
      (config.arrayConfigs.map (·.safeName)).any fun safeName =>
        (safeName.toList ++ ['_', '_']).isPrefixOf name.toList := by
    intro config
    rw [isResolvedArray, List.any_map]
    rfl
  rw [hany, hany, h.arrayNames_eq]

theorem grouped_congr (h : a.Agrees b) (s : TableSchema) (rowId : Dimension) :
    grouped a s rowId = grouped b s rowId := by
  have hmeasure : aggregateMeasure a = aggregateMeasure b := by
    funext d
    rw [aggregateMeasure, aggregateMeasure, isResolvedArray_congr h]
  rw [grouped, grouped, hmeasure]

/-- The base schema knows a config by the joins it declares and by its overrides. -/
theorem preparedBase_congr {style : KeyStyle} {request : Request} (h : a.Agrees b)
    (hjoins : a.columnConfigs.map (baseJoin style request.tableSchemas) =
      b.columnConfigs.map (baseJoin style request.tableSchemas))
    (baseSql : String) (members : List String) :
    preparedBase style baseSql request a members =
      preparedBase style baseSql request b members := by
  rw [preparedBase, preparedBase, baseSchema, baseSchema, hjoins, h.overrides]

end

/-! ## Phases and pipelines -/

section

variable {σ : Type} {compiler : Compiler σ} {style : KeyStyle} {request : Request}
  {a b : ResolutionConfig} {context : Option ContextParams}

theorem unnest_congr (h : a.Agrees b) (base : TableSchema) :
    unnest compiler base a context = unnest compiler base b context := by
  rw [unnest, unnest, flattened_congr h]

theorem resolve_congr (h : a.Agrees b) (base : TableSchema) (projections : List String) :
    resolve compiler base a projections context = resolve compiler base b projections context := by
  simp only [resolve, lookupSchemas_congr h, expandMembers_congr h, lookupPaths_congr h]

theorem aggregate_congr (h : a.Agrees b) (resolved : TableSchema) :
    aggregate compiler resolved a context = aggregate compiler resolved b context := by
  simp only [aggregate, grouped_congr h]

theorem restoreAliases_congr (h : a.Agrees b) (aggregated : TableSchema)
    (schemas : List TableSchema) :
    restoreAliases compiler aggregated schemas a context =
      restoreAliases compiler aggregated schemas b context := by
  rw [restoreAliases, restoreAliases, aliasMap_congr h]

section

variable (h : a.Agrees b)
  (hjoins : a.columnConfigs.map (baseJoin style request.tableSchemas) =
    b.columnConfigs.map (baseJoin style request.tableSchemas))

include h hjoins

theorem resolveArrays_congr (baseSql : String) :
    resolveArrays compiler style request baseSql a =
      resolveArrays compiler style request baseSql b := by
  simp only [resolveArrays, preparedBase_congr h hjoins, unnest_congr h.safeKeyed,
    resolve_congr h.safeKeyed, aggregate_congr h.safeKeyed, restoreAliases_congr h.safeKeyed]

theorem resolveScalars_congr (baseSql : String) :
    resolveScalars compiler style request baseSql a =
      resolveScalars compiler style request baseSql b := by
  simp only [resolveScalars, preparedBase_congr h hjoins, aliasMap_congr h, lookupSchemas_congr h,
    expandMembers_congr h, lookupPaths_congr h]

end

theorem compile_congr {columns : List ColumnConfig} {lookups : List TableSchema}
    (h : (projectedConfig (request.withLookups columns lookups)).Agrees (projectedConfig request))
    (hjoins : (projectedConfig (request.withLookups columns lookups)).columnConfigs.map
        (baseJoin style request.tableSchemas) =
      (projectedConfig request).columnConfigs.map (baseJoin style request.tableSchemas))
    (compiler : Compiler σ) :
    compile compiler style (request.withLookups columns lookups) =
      compile compiler style request := by
  rw [compile_eq, compile_eq]
  apply bind_congr
  intro baseSql
  rw [resolveProjected, resolveProjected, h.isEmpty_eq, h.hasArrayColumns_eq]
  congr 2
  · exact resolveArrays_congr h hjoins baseSql
  · exact resolveScalars_congr h hjoins baseSql

end

/-! ## What is not needed -/

open Calling (calls)

/-- Without columns that are not projected, and without lookup tables that none of the remaining
columns names, resolution makes the same calls with the same result. -/
theorem compile_without_irrelevant {σ : Type} {request : Request} {columns : List ColumnConfig}
    {lookups : List TableSchema}
    (hcolumns : LeavesOut (fun c => ¬ IsProjected request c) request.config.columnConfigs columns)
    (hlookups : LeavesOut (fun lookup => ∀ c ∈ columns, c.source ≠ lookup.name)
      request.config.tableSchemas lookups)
    (compiler : Compiler σ) (style : KeyStyle) (s : σ) :
    calls (compile compiler.recorded style (request.withLookups columns lookups)) s =
      calls (compile compiler.recorded style request) s ∧
    (compile compiler style (request.withLookups columns lookups)).run s =
      (compile compiler style request).run s := by
  have hprojected : (projectedConfig (request.withLookups columns lookups)).columnConfigs =
      (projectedConfig request).columnConfigs := by
    apply hcolumns.filter_eq
    intro c hc
    simpa [IsProjected, eq_comm] using hc
  have hagrees : (projectedConfig (request.withLookups columns lookups)).Agrees
      (projectedConfig request) := by
    refine ⟨by rw [hprojected], rfl, fun c hc => ?_⟩
    -- A lookup table that is left out is not the one that `c` names.
    apply hlookups.find?_eq
    intro lookup hlookup
    exact decide_eq_false (Ne.symm (hlookup c (List.mem_filter.1 hc).1))
  have hjoins := congrArg (List.map (baseJoin style request.tableSchemas)) hprojected
  rw [compile_congr hagrees hjoins compiler.recorded, compile_congr hagrees hjoins compiler]
  exact ⟨rfl, rfl⟩

/-- Of the orders only the number and the tag are put out, so that neither the owners nor their
lookup table are needed. -/
theorem tags_compile_without_irrelevant :
    LeavesOut (fun c => ¬ IsProjected tagsRequest c) tagsRequest.config.columnConfigs
        (tagsRequest.config.columnConfigs.drop 1) ∧
      LeavesOut (fun lookup => ∀ c ∈ tagsRequest.config.columnConfigs.drop 1,
          c.source ≠ lookup.name) tagsRequest.config.tableSchemas
        (tagsRequest.config.tableSchemas.drop 1) ∧
      calls (compile (Compiler.sql .dotted).recorded .dotted (tagsRequest.withLookups
          (tagsRequest.config.columnConfigs.drop 1) (tagsRequest.config.tableSchemas.drop 1))) () =
        calls (compile (Compiler.sql .dotted).recorded .dotted tagsRequest) () ∧
      (compile (Compiler.sql .dotted) .dotted (tagsRequest.withLookups
          (tagsRequest.config.columnConfigs.drop 1)
          (tagsRequest.config.tableSchemas.drop 1))).run () =
        (compile (Compiler.sql .dotted) .dotted tagsRequest).run () := by
  have hcolumns : LeavesOut (fun c => ¬ IsProjected tagsRequest c)
      tagsRequest.config.columnConfigs (tagsRequest.config.columnConfigs.drop 1) :=
    .leave (by simp only [IsProjected]; decide +kernel) (.keep _ .nil)
  have hlookups : LeavesOut (fun lookup => ∀ c ∈ tagsRequest.config.columnConfigs.drop 1,
      c.source ≠ lookup.name) tagsRequest.config.tableSchemas
        (tagsRequest.config.tableSchemas.drop 1) :=
    .leave (by decide +kernel) (.keep _ .nil)
  exact ⟨hcolumns, hlookups, compile_without_irrelevant hcolumns hlookups _ _ _⟩

end Resolution
end SemanticLayer
