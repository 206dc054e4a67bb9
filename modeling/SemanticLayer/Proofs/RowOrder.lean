import SemanticLayer.Proofs.BaseReferences
import SemanticLayer.Proofs.BaseSelect

/-!
# SemanticLayer.Proofs.RowOrder

The row id is ordered as the caller asks.

An ordered member is looked up by its safe key, which may be the name of one dimension of the base
schema and the alias of another. `orderColumn_of_listed` says which of them is taken: the member's
own, unless the safe key is the column of a member listed before it. Where that cannot happen,
`rowNumberSql_follows_order` gives the whole text of the row id.
-/

namespace SemanticLayer
namespace Resolution

/-- A listed member is ordered by its own column, unless its safe key is the column of a member that
is listed before it. -/
theorem orderColumn_of_listed {style : KeyStyle} {schemas : List TableSchema} {m : String}
    {before after : List String} {dimensions : List Dimension}
    (h : (before ++ m :: after).mapM (baseDimension style schemas) = .ok dimensions)
    (first : ∀ p ∈ before, Member.safeKey p ≠ Member.safeKey m) :
    orderColumn dimensions m =
      if Member.safeKey m ∈ before.map (baseColumn style schemas) then Member.safeKey m
      else baseColumn style schemas m := by
  rw [orderColumn_eq_find? h, List.find?_append]
  cases hfind : before.find? fun p => Member.safeKey p = Member.safeKey m ∨
      baseColumn style schemas p = Member.safeKey m with
  | some p =>
    -- No member before `m` has its safe key, so `p` was found by its column.
    have hp : p ∈ before := List.mem_of_find?_eq_some hfind
    have hcolumn : baseColumn style schemas p = Member.safeKey m := by
      have hkey := List.find?_some hfind
      simp only [decide_eq_true_eq] at hkey
      exact hkey.resolve_left (first p hp)
    rw [if_pos (List.mem_map.2 ⟨p, hp, hcolumn⟩)]
    exact hcolumn
  | none =>
    have hnone : Member.safeKey m ∉ before.map (baseColumn style schemas) := by
      intro hmem
      obtain ⟨p, hp, hcolumn⟩ := List.mem_map.1 hmem
      exact List.find?_eq_none.1 hfind p hp (decide_eq_true (.inr hcolumn))
    rw [if_neg hnone, List.find?_cons_of_pos (by simp)]
    rfl

-- The region is put out under the safe key of the order number, and is taken for it.
example : orderColumn
    [{ name := "orders__region", sql := "", type := .string, «alias» := some "orders__id" },
     { name := "orders__id", sql := "", type := .number, «alias» := some "Order ID" }]
    "orders.id" = "orders__id" := by
  decide

/-- Members that cannot be taken for one another are ordered by their own columns. -/
theorem orderColumn_of_apart {style : KeyStyle} {schemas : List TableSchema}
    {members : List String} {dimensions : List Dimension}
    (h : members.mapM (baseDimension style schemas) = .ok dimensions)
    (distinct : ∀ p ∈ members, ∀ q ∈ members, Member.safeKey p = Member.safeKey q → p = q)
    (apart : ∀ p ∈ members, ∀ q ∈ members, baseColumn style schemas p = Member.safeKey q → p = q)
    {m : String} (hm : m ∈ members) : orderColumn dimensions m = baseColumn style schemas m := by
  -- The list is cut at the first `m`, since a member may be listed twice.
  obtain ⟨before, after, rfl, hfirst⟩ := List.eq_append_cons_of_mem hm
  have hlisted : ∀ p ∈ before, p ∈ before ++ m :: after := fun p hp => List.mem_append_left _ hp
  rw [orderColumn_of_listed h, if_neg]
  · intro hmem
    obtain ⟨p, hp, hcolumn⟩ := List.mem_map.1 hmem
    exact hfirst (apart p (hlisted p hp) m hm hcolumn ▸ hp)
  · intro p hp hkey
    exact hfirst (distinct p (hlisted p hp) m hm hkey ▸ hp)

/-- The row id of a base schema is ordered by one key for each entry of the order, in the order of
the entries. The key reads the column of the entry's member, under which every statement over the
schemas puts the member out. -/
theorem rowNumberSql_follows_order {style : KeyStyle} {schemas : List TableSchema}
    {members : List String} {order : List OrderEntry}
    (found : ∀ m ∈ members, (findField schemas m).isSome)
    (distinct : ∀ p ∈ members, ∀ q ∈ members, Member.safeKey p = Member.safeKey q → p = q)
    (apart : ∀ p ∈ members, ∀ q ∈ members, baseColumn style schemas p = Member.safeKey q → p = q)
    (nonempty : order ≠ []) (listed : ∀ e ∈ order, e.member ∈ members) (baseSql : String)
    (configs : List ColumnConfig) :
    ∃ base, baseSchema style baseSql schemas configs members = .ok base ∧
      rowNumberSql order base.dimensions base.name =
        "row_number() OVER (ORDER BY "
          ++ ", ".intercalate (order.map fun e =>
            "__base_query." ++ quoteIdentifier (baseColumn style schemas e.member) ++ " "
              ++ e.direction.sql)
          ++ ")" ∧
      ∀ (q : Query) (statement : Select), Select.ofQuery style q schemas = .ok statement →
        statement.names = (q.dimensions ++ q.measures).map (baseColumn style schemas) := by
  obtain ⟨base, hbase, hdims⟩ := exists_baseSchema found baseSql configs
  have hname : base.name = baseName := by
    obtain ⟨_, -, h⟩ := bind_eq_ok.1 hbase
    cases h
    rfl
  refine ⟨base, hbase, ?_, fun q statement => names_eq_baseColumns⟩
  have hkeys : order.map (rowOrderKey base.name base.dimensions) = order.map fun e =>
      "__base_query." ++ quoteIdentifier (baseColumn style schemas e.member) ++ " "
        ++ e.direction.sql := by
    apply List.map_congr_left
    intro e he
    rw [rowOrderKey, hname, orderColumn_of_apart hdims distinct apart (listed e he),
      columnOf_baseName]
  rw [rowNumberSql, if_neg (by simpa using nonempty), hkeys]

def shopOrder : List OrderEntry :=
  [⟨"orders.id", .descending⟩, ⟨"orders.total", .ascending⟩, ⟨"customers.name", .ascending⟩,
   ⟨"orders.id", .ascending⟩]

theorem shop_rowNumberSql_follows_order :
    (∀ m ∈ shopQuery.members, (findField shopSchemas m).isSome) ∧
    (∀ p ∈ shopQuery.members, ∀ q ∈ shopQuery.members,
      Member.safeKey p = Member.safeKey q → p = q) ∧
    (∀ p ∈ shopQuery.members, ∀ q ∈ shopQuery.members,
      baseColumn .dotted shopSchemas p = Member.safeKey q → p = q) ∧
    shopOrder ≠ [] ∧ (∀ e ∈ shopOrder, e.member ∈ shopQuery.members) ∧
    ∃ base, baseSchema .dotted "SELECT 1" shopSchemas [] shopQuery.members = .ok base ∧
      rowNumberSql shopOrder base.dimensions base.name =
        "row_number() OVER (ORDER BY __base_query.\"orders.id\" DESC, "
          ++ "__base_query.\"Total \"\"EUR\"\"\" ASC, __base_query.\"Customer\" ASC, "
          ++ "__base_query.\"orders.id\" ASC)" ∧
      ∀ (q : Query) (statement : Select), Select.ofQuery .dotted q shopSchemas = .ok statement →
        statement.names = (q.dimensions ++ q.measures).map (baseColumn .dotted shopSchemas) := by
  have found : ∀ m ∈ shopQuery.members, (findField shopSchemas m).isSome := by decide +kernel
  have distinct : ∀ p ∈ shopQuery.members, ∀ q ∈ shopQuery.members,
      Member.safeKey p = Member.safeKey q → p = q := by
    decide +kernel
  have apart : ∀ p ∈ shopQuery.members, ∀ q ∈ shopQuery.members,
      baseColumn .dotted shopSchemas p = Member.safeKey q → p = q := by
    decide +kernel
  have listed : ∀ e ∈ shopOrder, e.member ∈ shopQuery.members := by decide +kernel
  obtain ⟨base, hbase, hsql, hnames⟩ :=
    rowNumberSql_follows_order found distinct apart (by decide) listed "SELECT 1" []
  exact ⟨found, distinct, apart, by decide, listed, base, hbase, hsql.trans (by decide +kernel),
    hnames⟩

end Resolution
end SemanticLayer
