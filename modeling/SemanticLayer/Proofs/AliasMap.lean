import Mathlib.Data.List.Nodup
import SemanticLayer.Proofs.ArrayColumns

/-!
# SemanticLayer.Proofs.AliasMap

The aliases that output columns get back.

`OutputColumn.label` says what a column should be called, given the alias of its projection.
The alias map is a dictionary from safe names to aliases, made from all fields of all schemas. As
long as the safe names are distinct, looking an output column up in it gives the label of that
column (`label_eq_get?_aliasMap`).
-/

namespace SemanticLayer

/-! ## Named fields -/

/-- A field with a member that names it. -/
structure NamedField where
  member : String
  field : Field
deriving DecidableEq, Repr

/-- The members of a schema. In a schema with an empty name, a field whose own name has no dot is
named by that name alone too. -/
def TableSchema.namedFields (s : TableSchema) : List NamedField :=
  s.fields.map (fun f => ⟨Member.qualify s.name f.name, f⟩)
    ++ if s.name = "" then
      (s.fields.filter fun f => '.' ∉ f.name.toList).map fun f => ⟨f.name, f⟩
    else []

def namedFields (schemas : List TableSchema) : List NamedField :=
  schemas.flatMap (·.namedFields)

theorem TableSchema.mem_namedFields {s : TableSchema} {f : Field} (h : f ∈ s.fields) :
    ⟨Member.qualify s.name f.name, f⟩ ∈ s.namedFields :=
  List.mem_append_left _ (List.mem_map_of_mem (f := fun f => NamedField.mk _ f) h)

theorem mem_namedFields_of_findField {schemas : List TableSchema} {member : String}
    {field : Field} (h : findField schemas member = some field) :
    ⟨member, field⟩ ∈ namedFields schemas := by
  obtain ⟨s, hs, htable, hmem, hname⟩ := findField_eq_some h
  refine List.mem_flatMap.2 ⟨s, hs, ?_⟩
  by_cases hdot : '.' ∈ member.toList
  · rw [← (Member.qualify_split hdot).1, ← htable, ← hname]
    exact TableSchema.mem_namedFields hmem
  · rw [Member.split_of_no_dot hdot] at htable hname
    simp only at htable hname
    rw [TableSchema.namedFields, if_pos htable]
    refine List.mem_append_right _ (List.mem_map.2 ⟨field, List.mem_filter.2 ⟨hmem, ?_⟩, ?_⟩)
    · simpa [hname] using hdot
    · rw [hname]

namespace Resolution

/-! ## Aliased columns -/

theorem mem_aliasedFields {s : TableSchema} {name a : String} :
    (name, a) ∈ aliasedFields s ↔ ∃ f ∈ s.fields, f.name = name ∧ f.alias = some a := by
  simp only [aliasedFields, TableSchema.fields, List.mem_append, List.mem_filterMap,
    Option.map_eq_some_iff, Prod.mk.injEq, List.mem_map]
  constructor
  · rintro (⟨d, hd, _, ha, hname, rfl⟩ | ⟨m, hm, _, ha, hname, rfl⟩)
    · exact ⟨.dimension d, .inl ⟨d, hd, rfl⟩, hname, ha⟩
    · exact ⟨.measure m, .inr ⟨m, hm, rfl⟩, hname, ha⟩
  · rintro ⟨_, ⟨d, hd, rfl⟩ | ⟨m, hm, rfl⟩, hname, ha⟩
    · exact .inl ⟨d, hd, a, ha, hname, rfl⟩
    · exact .inr ⟨m, hm, a, ha, hname, rfl⟩

/-- An aliased column comes from a named field. -/
theorem exists_namedField {schemas : List TableSchema} {key a : String}
    (h : (key, a) ∈ aliasedColumns schemas) :
    ∃ n ∈ namedFields schemas, key = Member.safeKey n.member ∧ n.field.alias = some a := by
  obtain ⟨s, hs, h⟩ := List.mem_flatMap.1 h
  obtain ⟨⟨name, a'⟩, hmem, heq⟩ := List.mem_map.1 h
  obtain ⟨rfl, rfl⟩ := Prod.mk.inj heq
  obtain ⟨f, hf, rfl, ha⟩ := mem_aliasedFields.1 hmem
  exact ⟨_, List.mem_flatMap.2 ⟨s, hs, TableSchema.mem_namedFields hf⟩, rfl, ha⟩

/-- The alias of a dotted member is among the aliased columns. -/
theorem mem_aliasedColumns {schemas : List TableSchema} {member a : String} {field : Field}
    (hdot : '.' ∈ member.toList) (hf : findField schemas member = some field)
    (ha : field.alias = some a) : (Member.safeKey member, a) ∈ aliasedColumns schemas := by
  obtain ⟨s, hs, htable, hmem, hname⟩ := findField_eq_some hf
  refine List.mem_flatMap.2 ⟨s, hs, List.mem_map.2 ⟨(field.name, a), ?_, ?_⟩⟩
  · exact mem_aliasedFields.2 ⟨field, hmem, rfl, ha⟩
  · simp only
    rw [htable, hname, (Member.qualify_split hdot).1]

/-! ## Labels -/

/-- The alias of a column of a lookup table. -/
def lookupColumnAlias (config : ResolutionConfig) (c : ColumnConfig) (column : String) :
    Option String :=
  ((config.sourceSchema? c.source).bind (·.dimension? column)).bind (·.alias)

/-- What an output column is called whose projection has the given alias. The only lookup column of
a projection takes its alias, several ones add theirs to it. Without an alias a column is called by
its name. -/
def OutputColumn.label (config : ResolutionConfig) (given : Option String) :
    OutputColumn → Option String
  | projected member => some (given.getD (Member.safeKey member))
  | lookedUp c column =>
    match given, c.resolutionColumns with
    | none, _ => some (c.resolvedName column)
    | some a, [_] => some a
    | some a, _ => (lookupColumnAlias config c column).map fun own => a ++ " - " ++ own

theorem OutputColumn.label_none (config : ResolutionConfig) (x : OutputColumn) :
    x.label config none = some x.name := by
  cases x <;> rfl

theorem lookupAlias_ok {config : ResolutionConfig} {source : TableSchema} {c : ColumnConfig}
    {a column : String} {e : String × String} (hs : config.sourceSchema? c.source = some source)
    (h : lookupAlias source c a column = .ok e) :
    (e.1, some e.2) = (c.resolvedName column,
      (lookupColumnAlias config c column).map fun own => a ++ " - " ++ own) := by
  rw [lookupAlias] at h
  split at h
  · rename_i own hown
    cases h
    simp [lookupColumnAlias, hs, hown, Member.compoundAlias]
  · cases h

theorem aliasEntries_ok {config : ResolutionConfig} {key a : String}
    {entries : List (String × String)} (hkey : Member.safeKey key = key)
    (h : aliasEntries config key a = .ok entries) :
    entries.map (fun e => (e.1, some e.2)) =
      (outputColumns config key).map fun x => (x.name, x.label config (some a)) := by
  rw [aliasEntries] at h
  split at h
  · rename_i hc
    cases h
    simp [outputColumns_of_none hc, OutputColumn.name, OutputColumn.label, hkey]
  · rename_i c hc
    rw [outputColumns_of_some hc]
    split at h
    · rename_i only hcolumns
      cases h
      simp [hcolumns, OutputColumn.name, OutputColumn.label]
    · rename_i columns hcolumns
      split at h
      · cases h
      · rename_i source hs
        rw [List.map_map, map_of_mapM_ok h fun _ _ _ he => lookupAlias_ok hs he]
        apply List.map_congr_left
        intro column _
        simp only [Function.comp_apply, OutputColumn.name, OutputColumn.label]

/-- The output columns of all aliased members with their labels. -/
def aliasedLabels (schemas : List TableSchema) (config : ResolutionConfig) :
    List (String × Option String) :=
  (aliasedColumns schemas).flatMap fun f =>
    (outputColumns config f.1).map fun x => (x.name, x.label config (some f.2))

theorem aliasMap_ok {schemas : List TableSchema} {config : ResolutionConfig}
    {aliases : Dictionary} (h : aliasMap schemas config = .ok aliases) :
    ∃ entries, aliases = .ofList entries ∧
      entries.map (fun e => (e.1, some e.2)) = aliasedLabels schemas config := by
  rw [aliasMap] at h
  obtain ⟨entries, hentries, h⟩ := bind_eq_ok.1 h
  cases h
  refine ⟨entries.flatten, rfl, flatMap_of_mapM_ok hentries ?_⟩
  rintro ⟨key, a⟩ hmem columns hcolumns
  obtain ⟨n, _, rfl, _⟩ := exists_namedField hmem
  exact aliasEntries_ok (Member.safeKey_safeKey n.member) hcolumns

/-! ## Looking labels up -/

/-- The lookup columns of all column configs. -/
def lookupColumns (config : ResolutionConfig) : List OutputColumn :=
  config.columnConfigs.flatMap fun c => c.resolutionColumns.map (.lookedUp c)

/-- The safe names of all members, and those of all lookup columns. -/
def safeNames (schemas : List TableSchema) (config : ResolutionConfig) : List String :=
  (namedFields schemas).map (fun n => Member.safeKey n.member)
    ++ (lookupColumns config).map (·.name)

theorem safeKey_mem_safeNames {schemas : List TableSchema} {config : ResolutionConfig}
    {member : String} {field : Field} (h : ⟨member, field⟩ ∈ namedFields schemas) :
    Member.safeKey member ∈ safeNames schemas config := by
  rw [safeNames, List.mem_append]
  exact .inl (List.mem_map.2 ⟨⟨member, field⟩, h, rfl⟩)

theorem name_mem_safeNames {schemas : List TableSchema} {config : ResolutionConfig}
    {x : OutputColumn} (h : x ∈ lookupColumns config) : x.name ∈ safeNames schemas config := by
  rw [safeNames, List.mem_append]
  exact .inr (List.mem_map.2 ⟨x, h, rfl⟩)

theorem mem_lookupColumns {config : ResolutionConfig} {p : String} {c : ColumnConfig}
    (hc : config.columnConfig? p = some c) {x : OutputColumn}
    (hx : x ∈ outputColumns config p) : x ∈ lookupColumns config := by
  rw [outputColumns_of_some hc] at hx
  exact List.mem_flatMap.2 ⟨c, (ResolutionConfig.columnConfig?_eq_some hc).1, hx⟩

theorem exists_outputColumn_safeKey {config : ResolutionConfig} {p : String} {x : OutputColumn}
    (hx : x ∈ outputColumns config p) :
    ∃ y ∈ outputColumns config (Member.safeKey p), y.name = x.name := by
  have hkey := config.columnConfig?_safeKey p
  cases hc : config.columnConfig? p with
  | none =>
    rw [outputColumns_of_none hc, List.mem_singleton] at hx
    refine ⟨.projected (Member.safeKey p), ?_, by rw [hx]; exact Member.safeKey_safeKey p⟩
    rw [outputColumns_of_none (hkey.trans hc)]
    exact List.mem_singleton_self _
  | some c =>
    rw [outputColumns_of_some hc] at hx
    refine ⟨x, ?_, rfl⟩
    rw [outputColumns_of_some (hkey.trans hc)]
    exact hx

section

variable {schemas : List TableSchema} {config : ResolutionConfig}
  (distinct : (safeNames schemas config).Nodup)

include distinct

theorem namedField_eq_of_safeKey {n m : NamedField} (hn : n ∈ namedFields schemas)
    (hm : m ∈ namedFields schemas) (h : Member.safeKey n.member = Member.safeKey m.member) :
    n = m :=
  List.inj_on_of_nodup_map (List.nodup_append'.1 distinct).1 hn hm h

theorem lookupColumn_eq_of_name {x y : OutputColumn} (hx : x ∈ lookupColumns config)
    (hy : y ∈ lookupColumns config) (h : x.name = y.name) : x = y :=
  List.inj_on_of_nodup_map (List.nodup_append'.1 distinct).2.1 hx hy h

theorem safeKey_ne_lookupColumn {n : NamedField} {x : OutputColumn}
    (hn : n ∈ namedFields schemas) (hx : x ∈ lookupColumns config) :
    Member.safeKey n.member ≠ x.name := by
  have hkey : Member.safeKey n.member ∈
      (namedFields schemas).map fun n => Member.safeKey n.member :=
    List.mem_map_of_mem hn
  have hname : x.name ∈ (lookupColumns config).map (·.name) := List.mem_map_of_mem hx
  intro he
  rw [he] at hkey
  exact (List.nodup_append'.1 distinct).2.2 hkey hname

/-- Output columns of one name belong to one field and have the same label. -/
theorem namedField_eq_of_name {n m : NamedField} (hn : n ∈ namedFields schemas)
    (hm : m ∈ namedFields schemas) {p q : String} (hp : Member.safeKey p = Member.safeKey n.member)
    (hq : Member.safeKey q = Member.safeKey m.member) {x y : OutputColumn}
    (hx : x ∈ outputColumns config p) (hy : y ∈ outputColumns config q) (h : x.name = y.name) :
    n = m ∧ ∀ given, x.label config given = y.label config given := by
  cases hcp : config.columnConfig? p with
  | none =>
    rw [outputColumns_of_none hcp, List.mem_singleton] at hx
    rw [hx] at h ⊢
    cases hcq : config.columnConfig? q with
    | none =>
      rw [outputColumns_of_none hcq, List.mem_singleton] at hy
      rw [hy] at h ⊢
      simp only [OutputColumn.name] at h
      refine ⟨namedField_eq_of_safeKey distinct hn hm (hp.symm.trans (h.trans hq)), fun given => ?_⟩
      simp [OutputColumn.label, h]
    | some c =>
      exact absurd (hp.symm.trans h)
        (safeKey_ne_lookupColumn distinct hn (mem_lookupColumns hcq hy))
  | some c =>
    have hxlookup := mem_lookupColumns hcp hx
    cases hcq : config.columnConfig? q with
    | none =>
      rw [outputColumns_of_none hcq, List.mem_singleton] at hy
      rw [hy] at h
      exact absurd (hq.symm.trans h.symm) (safeKey_ne_lookupColumn distinct hm hxlookup)
    | some c' =>
      have hxy := lookupColumn_eq_of_name distinct hxlookup (mem_lookupColumns hcq hy) h
      rw [outputColumns_of_some hcp] at hx
      rw [outputColumns_of_some hcq, ← hxy] at hy
      obtain ⟨column, _, hcolumn⟩ := List.mem_map.1 hx
      obtain ⟨column', _, hcolumn'⟩ := List.mem_map.1 hy
      have hconfig : c' = c := (OutputColumn.lookedUp.inj (hcolumn'.trans hcolumn.symm)).1
      have hsafe := (ResolutionConfig.columnConfig?_eq_some hcq).2
      rw [hconfig, (ResolutionConfig.columnConfig?_eq_some hcp).2, hp, hq] at hsafe
      exact ⟨namedField_eq_of_safeKey distinct hn hm hsafe, fun given => by rw [hxy]⟩

/-- What the alias entries say of an output column comes from the field of its projection. -/
theorem alias_of_mem_entries {p : String} {field : Field} {entries : List (String × String)}
    (hf : findField schemas p = some field)
    (hentries : (entries.map fun e => (e.1, some e.2)) = aliasedLabels schemas config)
    {x : OutputColumn} (hx : x ∈ outputColumns config p) {e : String × String} (he : e ∈ entries)
    (hname : e.1 = x.name) :
    ∃ a, field.alias = some a ∧ some e.2 = x.label config (some a) := by
  have hmem : (e.1, some e.2) ∈ entries.map fun e => (e.1, some e.2) :=
    List.mem_map_of_mem (f := fun e => (e.1, some e.2)) he
  rw [hentries] at hmem
  obtain ⟨⟨key, a⟩, hcolumn, hmem⟩ := List.mem_flatMap.1 hmem
  obtain ⟨y, hy, heq⟩ := List.mem_map.1 hmem
  obtain ⟨hyname, hylabel⟩ := Prod.mk.inj heq
  obtain ⟨m, hm, rfl, hma⟩ := exists_namedField hcolumn
  obtain ⟨hsame, hlabel⟩ := namedField_eq_of_name distinct (mem_namedFields_of_findField hf) hm rfl
    (Member.safeKey_safeKey m.member) hx hy (hname.symm.trans hyname.symm)
  refine ⟨a, ?_, by rw [hlabel, hylabel]⟩
  rw [← hsame] at hma
  exact hma

/-- The alias map knows the output columns of a dotted member by their labels. -/
theorem label_eq_get?_aliasMap {p : String} {field : Field} {aliases : Dictionary}
    (hdot : '.' ∈ p.toList) (hf : findField schemas p = some field)
    (ha : aliasMap schemas config = .ok aliases) {x : OutputColumn}
    (hx : x ∈ outputColumns config p) :
    some ((aliases.get? x.name).getD x.name) = x.label config field.alias := by
  obtain ⟨entries, rfl, hentries⟩ := aliasMap_ok ha
  cases halias : field.alias with
  | none =>
    have hnone : ∀ e ∈ entries, e.1 ≠ x.name := by
      intro e he hname
      obtain ⟨a, hsome, _⟩ := alias_of_mem_entries distinct hf hentries hx he hname
      rw [halias] at hsome
      cases hsome
    rw [Dictionary.get?_ofList_eq_none hnone, OutputColumn.label_none]
    rfl
  | some a =>
    -- The entry of the member itself shows that the key was put in.
    obtain ⟨y, hy, hyname⟩ := exists_outputColumn_safeKey hx
    have hmem : (y.name, y.label config (some a)) ∈ entries.map fun e => (e.1, some e.2) := by
      rw [hentries]
      exact List.mem_flatMap.2 ⟨_, mem_aliasedColumns hdot hf halias,
        List.mem_map_of_mem (f := fun x => (x.name, x.label config (some a))) hy⟩
    obtain ⟨e, he, heq⟩ := List.mem_map.1 hmem
    have hename : e.1 = x.name := (Prod.mk.inj heq).1.trans hyname
    obtain ⟨e', he', hsame, hget⟩ := Dictionary.exists_get?_ofList he
    obtain ⟨a', ha', hlabel⟩ :=
      alias_of_mem_entries distinct hf hentries hx he' (hsame.trans hename)
    rw [halias] at ha'
    cases ha'
    rw [← hename, hget, ← hlabel]
    rfl

end

end Resolution
end SemanticLayer
