import SemanticLayer.Proofs.AliasMap

/-!
# SemanticLayer.Proofs.RestoredAliases

Which alias a member gets back if several fields have its name. The member stands for the first of
them, dimensions before measures and earlier schemas before later ones. The alias map is filled in
the same order, so that the last of them that has an alias decides (`get?_aliasMap`).
-/

namespace SemanticLayer

/-- The fields of the schemas under their dotted names, in the order of the schemas. -/
def dottedFields (schemas : List TableSchema) : List NamedField :=
  schemas.flatMap fun s => s.fields.map fun f => ⟨Member.qualify s.name f.name, f⟩

theorem mem_dottedFields_of_findField {schemas : List TableSchema} {member : String}
    {field : Field} (hdot : '.' ∈ member.toList) (h : findField schemas member = some field) :
    ⟨member, field⟩ ∈ dottedFields schemas := by
  obtain ⟨s, hs, htable, hmem, hname⟩ := findField_eq_some h
  refine List.mem_flatMap.2 ⟨s, hs, List.mem_map.2 ⟨field, hmem, ?_⟩⟩
  rw [htable, hname, (Member.qualify_split hdot).1]

/-- The aliases of the fields that have the name of the member, in the order of the schemas. -/
def aliasesOf (schemas : List TableSchema) (member : String) : List String :=
  ((dottedFields schemas).filter fun n => n.member = member).filterMap (·.field.alias)

theorem mem_aliasesOf {schemas : List TableSchema} {member a : String} :
    a ∈ aliasesOf schemas member ↔
      ∃ n ∈ dottedFields schemas, n.member = member ∧ n.field.alias = some a := by
  simp [aliasesOf, and_assoc]

namespace Resolution

theorem aliasedFields_eq (s : TableSchema) :
    aliasedFields s = s.fields.filterMap fun f => f.alias.map fun a => (f.name, a) := by
  rw [aliasedFields, TableSchema.fields, List.filterMap_append, List.filterMap_map,
    List.filterMap_map]
  rfl

theorem aliasedColumns_eq (schemas : List TableSchema) :
    aliasedColumns schemas = (dottedFields schemas).filterMap fun n =>
      n.field.alias.map fun a => (Member.safeKey n.member, a) := by
  rw [aliasedColumns, dottedFields, List.filterMap_flatMap]
  congr 1
  funext s
  rw [aliasedFields_eq, List.map_filterMap, List.filterMap_map]
  congr 1
  funext f
  cases hf : f.alias with
  | none => simp [hf]
  | some a => simp [hf]

/-- Fields of different names have different safe keys, which no lookup column is called by. -/
structure KeysApart (schemas : List TableSchema) (config : ResolutionConfig) : Prop where
  fields : ∀ n ∈ dottedFields schemas, ∀ n' ∈ dottedFields schemas,
    Member.safeKey n.member = Member.safeKey n'.member → n.member = n'.member
  lookups : ∀ c ∈ config.columnConfigs, ∀ column ∈ c.resolutionColumns,
    ∀ n ∈ dottedFields schemas, c.resolvedName column ≠ Member.safeKey n.member

section

variable {schemas : List TableSchema} {config : ResolutionConfig}
  (apart : KeysApart schemas config) {n : NamedField} (hn : n ∈ dottedFields schemas)
  (hconfig : config.columnConfig? n.member = none)

include apart hn hconfig

/-- Only a field of the same name puts anything under the key of a column that is not resolved. -/
theorem filter_aliasEntries {key a : String} {entries : List (String × String)}
    (hkey : Member.safeKey key = key) (h : aliasEntries config key a = .ok entries) :
    entries.filter (fun e => e.1 = Member.safeKey n.member) =
      [(key, a)].filter fun e => e.1 = Member.safeKey n.member := by
  cases hc : config.columnConfig? key with
  | none =>
    rw [aliasEntries, hc] at h
    cases h
    rfl
  | some c =>
    -- A resolved column has another key, and puts in its lookup columns alone.
    have hne : key ≠ Member.safeKey n.member := by
      rintro rfl
      rw [config.columnConfig?_safeKey, hconfig] at hc
      cases hc
    rw [List.filter_cons_of_neg (by simpa using hne), List.filter_nil]
    apply List.filter_eq_nil_iff.2
    intro e he
    have hmem : (e.1, some e.2) ∈ entries.map fun e => (e.1, some e.2) :=
      List.mem_map_of_mem (f := fun e => (e.1, some e.2)) he
    rw [aliasEntries_ok hkey h, outputColumns_of_some hc, List.map_map] at hmem
    obtain ⟨column, hcolumn, heq⟩ := List.mem_map.1 hmem
    have hname : c.resolvedName column = e.1 := (Prod.mk.inj heq).1
    rw [← hname]
    simpa using apart.lookups c (ResolutionConfig.columnConfig?_eq_some hc).1 column hcolumn n hn

omit hconfig in
/-- What is put under the key of a name are the aliases of the fields of that name. -/
theorem map_filter_aliasedColumns :
    ((aliasedColumns schemas).filter fun f => f.1 = Member.safeKey n.member).map (·.2) =
      aliasesOf schemas n.member := by
  rw [aliasedColumns_eq, List.filter_filterMap, List.map_filterMap, aliasesOf,
    List.filterMap_filter]
  apply List.filterMap_congr
  intro n' hn'
  by_cases hname : n'.member = n.member
  · cases n'.field.alias <;> simp [hname]
  · have hkey : Member.safeKey n'.member ≠ Member.safeKey n.member :=
      fun he => hname (apart.fields n' hn' n hn he)
    cases n'.field.alias <;> simp [hname, hkey]

/-- The alias map knows a column that is not resolved by the last alias of its name. -/
theorem get?_aliasMap {aliases : Dictionary} (h : aliasMap schemas config = .ok aliases) :
    aliases.get? (Member.safeKey n.member) = (aliasesOf schemas n.member).getLast? := by
  rw [aliasMap] at h
  obtain ⟨entries, hentries, h⟩ := bind_eq_ok.1 h
  cases h
  let isOwn : String × String → Bool := fun e => e.1 = Member.safeKey n.member
  have hput : entries.map (List.filter isOwn) =
      (aliasedColumns schemas).map fun f => [f].filter isOwn := by
    apply map_of_mapM_ok hentries
    rintro ⟨key, a⟩ hmem es hes
    obtain ⟨n', _, rfl, _⟩ := exists_namedField hmem
    exact filter_aliasEntries apart hn hconfig (Member.safeKey_safeKey n'.member) hes
  have hown : entries.flatten.filter isOwn = (aliasedColumns schemas).filter isOwn := by
    rw [List.filter_flatten, hput, ← List.flatMap_def, ← List.filter_flatMap,
      List.flatMap_singleton']
  rw [Dictionary.get?_ofList, ← List.getLast?_filter, hown, ← List.getLast?_map,
    map_filter_aliasedColumns apart hn]

end

/-- A member with an alias that is not resolved gets back the last alias of its name. This is the
alias of the field that the member stands for exactly if the last field of that name that has an
alias has the same one, and so it is if no other field has that name. -/
theorem restored_alias_iff {schemas : List TableSchema} {config : ResolutionConfig}
    {member a : String} {field : Field} {aliases : Dictionary} (apart : KeysApart schemas config)
    (hdot : '.' ∈ member.toList) (hconfig : config.columnConfig? member = none)
    (hf : findField schemas member = some field) (ha : field.alias = some a)
    (h : aliasMap schemas config = .ok aliases) :
    (∃ b, (aliasesOf schemas member).getLast? = some b ∧
      aliases.get? (Member.safeKey member) = some b) ∧
    (aliases.get? (Member.safeKey member) = some a ↔
      (aliasesOf schemas member).getLast? = some a) ∧
    ((∀ n ∈ dottedFields schemas, n.member = member → n.field = field) →
      aliases.get? (Member.safeKey member) = some a) := by
  have hn := mem_dottedFields_of_findField hdot hf
  have hget := get?_aliasMap apart hn hconfig h
  have hmem : a ∈ aliasesOf schemas member := mem_aliasesOf.2 ⟨_, hn, rfl, ha⟩
  obtain ⟨b, hb⟩ : ∃ b, (aliasesOf schemas member).getLast? = some b :=
    Option.isSome_iff_exists.1 (List.getLast?_isSome.2 (List.ne_nil_of_mem hmem))
  refine ⟨⟨b, hb, hget.trans hb⟩, by rw [hget], ?_⟩
  intro honly
  obtain ⟨n, hown, hname, hnb⟩ := mem_aliasesOf.1 (List.mem_of_getLast? hb)
  rw [honly n hown hname, ha] at hnb
  rw [hget, hb, hnb]

/-- Orders by their ids, which can be counted. The count has the alias `counted`. -/
def countedOrders (counted : Option String) : List TableSchema :=
  [{ name := "orders"
     sql := "SELECT * FROM orders"
     measures :=
       [{ name := "id", sql := "COUNT(orders.id)", type := .number, «alias» := counted }]
     dimensions :=
       [{ name := "id", sql := "orders.id", type := .number, «alias» := some "Order ID" },
        { name := "owner_ids", sql := "orders.owner_ids", type := .stringArray,
          «alias» := some "Owners" }] }]

def ownersConfig : ResolutionConfig where
  columnConfigs := [.ofType "orders.owner_ids" .stringArray "customers" "id" ["name"]]

/-- A count without an alias leaves the id its own. -/
theorem id_alias_restored :
    ∃ aliases, aliasMap (countedOrders none) ownersConfig = .ok aliases ∧
      (findField (countedOrders none) "orders.id").bind (·.alias) = some "Order ID" ∧
      aliases.get? "orders__id" = some "Order ID" := by
  have apart : KeysApart (countedOrders none) ownersConfig := by
    constructor <;> decide +kernel
  obtain ⟨aliases, h⟩ := exists_of_isOk (x := aliasMap (countedOrders none) ownersConfig)
    (by decide +kernel)
  obtain ⟨field, hf, ha⟩ : ∃ field, findField (countedOrders none) "orders.id" = some field ∧
      field.alias = some "Order ID" := ⟨_, rfl, rfl⟩
  obtain ⟨_, hiff, _⟩ := restored_alias_iff apart (by decide) (by decide +kernel) hf ha h
  have hkey : Member.safeKey "orders.id" = "orders__id" := by decide
  rw [hkey] at hiff
  refine ⟨aliases, h, ?_, hiff.2 (by decide +kernel)⟩
  rw [hf]
  exact ha

/-- The alias of a count of the same name takes the place of the alias of the id. -/
theorem count_takes_alias_of_id :
    KeysApart (countedOrders (some "Orders")) ownersConfig ∧
    ownersConfig.columnConfig? "orders.id" = none ∧
    (findField (countedOrders (some "Orders")) "orders.id").bind (·.alias) = some "Order ID" ∧
    (aliasMap (countedOrders (some "Orders")) ownersConfig).toOption.bind
      (·.get? (Member.safeKey "orders.id")) = some "Orders" := by
  refine ⟨?_, by decide +kernel, by decide +kernel, by decide +kernel⟩
  constructor <;> decide +kernel

end Resolution
end SemanticLayer
