import SemanticLayer.Codec.Resolution
import SemanticLayer.Proofs.Codec
import SemanticLayer.Proofs.Filters

/-!
# SemanticLayer.Proofs.RequestJson

The JSON form of a request loses nothing: what is written for a request is read as that request.
There is one `codes` theorem for each type that a request is made of. Path nodes and filters carry
no tag, so their proofs also say that no form before theirs takes the document.
-/

namespace SemanticLayer

/-! ## Table schemas -/

theorem MemberType.codes (t : MemberType) : Codes MemberType.encode MemberType.decode t :=
  .word (by cases t <;> rfl)

theorem Measure.codes (m : Measure) : Codes Measure.encode Measure.decode m := by
  have given := Codes.optional (o := m.alias) (fun s _ => .text s) (by simp [Json.text])
  refine .record [("name", some (.text m.name)), ("sql", some (.text m.sql)),
    ("type", some m.type.encode), ("alias", m.alias.map .text)] ?_ rfl (by decide) ?_
  · simp [Measure.encode, Json.ofSlots]
  · exact .read (Codes.text _).required (.read (Codes.text _).required
      (.read m.type.codes.required (.read given (.done m))))

theorem DimensionModifier.codes (m : DimensionModifier) :
    Codes DimensionModifier.encode DimensionModifier.decode m :=
  .record [("shouldFlattenArray", some (.bool m.flattenArray)),
    ("shouldUnnestGroupBy", some (.bool m.unnestGroupBy))] rfl rfl (by decide)
    (.read ((Codes.bool _).withDefault false) (.read ((Codes.bool _).withDefault false) (.done m)))

theorem Dimension.codes (d : Dimension) : Codes Dimension.encode Dimension.decode d := by
  have given := Codes.optional (o := d.alias) (fun s _ => .text s) (by simp [Json.text])
  have modifier := Codes.optional (o := d.modifier) (fun m _ => m.codes)
    (by simp [DimensionModifier.encode, Json.record])
  refine .record [("name", some (.text d.name)), ("sql", some (.text d.sql)),
    ("type", some d.type.encode), ("alias", d.alias.map .text),
    ("modifier", d.modifier.map (·.encode))] ?_ rfl (by decide) ?_
  · simp [Dimension.encode, Json.ofSlots]
  · exact .read (Codes.text _).required (.read (Codes.text _).required
      (.read d.type.codes.required (.read given (.read modifier (.done d)))))

theorem JoinDeclaration.codes (j : JoinDeclaration) :
    Codes JoinDeclaration.encode JoinDeclaration.decode j :=
  .record [("sql", some (.text j.sql))] rfl rfl (by decide)
    ⟨by simpa using .text j.sql, fun _ _ => rfl⟩

theorem TableSchema.codes (s : TableSchema) : Codes TableSchema.encode TableSchema.decode s := by
  have measures := Codes.list fun (m : Measure) (_ : m ∈ s.measures) => m.codes
  have dimensions := Codes.list fun (d : Dimension) (_ : d ∈ s.dimensions) => d.codes
  have joins := Codes.list fun (j : JoinDeclaration) (_ : j ∈ s.joins) => j.codes
  exact .record [("name", some (.text s.name)), ("sql", some (.text s.sql)),
    ("measures", some (.array (s.measures.map (·.encode)))),
    ("dimensions", some (.array (s.dimensions.map (·.encode)))),
    ("joins", some (.array (s.joins.map (·.encode))))] rfl rfl (by decide)
    (.read (Codes.text _).required (.read (Codes.text _).required (.read (measures.withDefault [])
      (.read (dimensions.withDefault []) (.read (joins.withDefault []) (.done s))))))

/-! ## Queries -/

theorem Json.isSoundItems_eq_all (items : List Json) : isSoundItems items = items.all isSound := by
  induction items with
  | nil => rfl
  | cons item rest ih => simp [isSoundItems, ih]

theorem Json.fits_of_isSound {j : Json} {depth : Nat} (hsound : j.isSound = true)
    (hdepth : j.depth ≤ depth) : j.fits depth = true := by
  simp [fits, hsound, hdepth]

namespace PathNode

theorem isSound_encode (node : PathNode) : node.encode.isSound = true := by
  cases node <;> rfl

theorem codes_hop (hop : Hop) : Codes (fun hop => (join hop).encode) Hop.decode hop :=
  .record [("left", some (.text hop.left)), ("right", some (.text hop.right)),
    ("on", some (.text hop.on))] rfl rfl (by decide)
    (.read (Codes.text _).required (.read (Codes.text _).required
      (.read (Codes.text _).required (.done hop))))

/-- A single table has no right side, so it is not taken for a join. -/
theorem decode_hop_single (table : String) (depth : Nat) :
    Hop.decode depth (single table).encode = none := by
  have hslots : Decoder.slots ["left", "right", "on"] (single table).encode =
      some [some (.text table), none, none] :=
    Decoder.slots_ofSlots [("left", some (.text table)), ("right", none), ("on", none)] rfl
      (by decide)
  cases depth with
  | zero => rfl
  | succ depth => simp only [Hop.decode, Decoder.record, hslots]; rfl

theorem codes_single (table : String) : Codes encode decodeSingle (single table) :=
  .record [("left", some (.text table))] rfl rfl (by decide)
    ⟨by simpa using .text table, fun _ _ => rfl⟩

theorem codes (node : PathNode) : Codes encode decode node := by
  cases node with
  | join hop =>
    refine ⟨(codes_hop hop).plain, fun depth hdepth => ?_⟩
    rw [decode, if_pos (Json.fits_of_isSound (isSound_encode _) hdepth),
      (codes_hop hop).decodes depth hdepth]
  | single table =>
    refine ⟨(codes_single table).plain, fun depth hdepth => ?_⟩
    rw [decode, if_pos (Json.fits_of_isSound (isSound_encode _) hdepth), decode_hop_single]
    exact (codes_single table).decodes depth hdepth

end PathNode

theorem JoinPath.codes (path : JoinPath) : Codes JoinPath.encode JoinPath.decode path :=
  .list fun node _ => node.codes

theorem Operator.codes (o : Operator) : Codes Operator.encode Operator.decode o :=
  .word (by cases o <;> rfl)

namespace Filter

theorem encodeList_eq_map (filters : List Filter) : encodeList filters = filters.map encode := by
  induction filters with
  | nil => rfl
  | cons f rest ih => simp [encodeList, ih]

theorem isSound_encode (f : Filter) : f.encode.isSound = true := by
  induction f using Filter.induction with
  | all filters ih | any filters ih =>
    simpa [encode, encodeList_eq_map, Json.record, Json.isSound, Json.isSoundFields,
      Json.isSoundItems_eq_all] using ih
  | member m operator values =>
    simp [encode, Operator.encode, Json.record, Json.text, Json.isSound, Json.isSoundFields,
      Json.isSoundItems_eq_all]

/-- A group takes two levels of depth, one for its object and one for the array in it. -/
theorem codes_group {name : String} {group : List Filter → Filter} {filters : List Filter}
    (hencode : encode (group filters) = .record [(name, .array (encodeList filters))])
    (hdecode : ∀ depth items parts, items.mapM (decodeSound depth) = some parts →
      decodeSound (depth + 2) (.record [(name, .array items)]) = some (group parts))
    (h : ∀ f ∈ filters, Codes encode decodeSound f) : Codes encode decodeSound (group filters) := by
  have hlist := Codes.list h
  rw [encodeList_eq_map] at hencode
  constructor
  · rw [hencode]
    exact .record (by simpa using hlist.plain)
  · intro depth hdepth
    rw [hencode] at hdepth ⊢
    obtain ⟨d, rfl, hfields⟩ := Json.depth_record_le hdepth
    have hitems := hfields _ List.mem_cons_self
    obtain ⟨d, rfl, -⟩ := Json.depth_array_le hitems
    exact hdecode d _ _ (hlist.decodes _ hitems)

theorem codes_member (m : String) (operator : Operator) (values : List String) :
    Codes encode decodeSound (.member m operator values) := by
  have hvalues := Codes.list fun (s : String) (_ : s ∈ values) => .text s
  constructor
  · exact .record (by simpa using ⟨.text m, operator.codes.plain, hvalues.plain⟩)
  · intro depth hdepth
    obtain ⟨d, rfl, hfields⟩ := Json.depth_record_le hdepth
    simp only [List.forall_mem_cons] at hfields
    obtain ⟨-, hoperator, harray, -⟩ := hfields
    obtain ⟨d, rfl, -⟩ := Json.depth_array_le harray
    have hnamed : Decoder.named ["member", "operator", "values"] [(some "member", .text m),
        (some "operator", operator.encode), (some "values", .array (values.map .text))] =
        some [some (.text m), some operator.encode, some (.array (values.map .text))] :=
      Decoder.slots_ofSlots [("member", some (.text m)), ("operator", some operator.encode),
        ("values", some (.array (values.map .text)))] rfl (by decide)
    have hmember : Decoder.string (d + 1) (.text m) = some m := rfl
    have hread := operator.codes.decodes (d + 1) hoperator
    have hlist := hvalues.decodes (d + 1) harray
    -- neither group key is there, so the predicate form is read
    simp [encode, Json.record, decodeSound, groupItems, Decoder.single, decodeMember, hnamed,
      Decoder.required, Decoder.withDefault, hmember, hread, hlist]

theorem codes_sound (f : Filter) : Codes encode decodeSound f := by
  induction f using Filter.induction with
  | all filters ih =>
    refine codes_group rfl (fun depth items parts hparts => ?_) ih
    simp [decodeSound, Json.record, groupItems, Decoder.single, hparts]
  | any filters ih =>
    refine codes_group rfl (fun depth items parts hparts => ?_) ih
    simp [decodeSound, Json.record, groupItems, Decoder.single, hparts]
  | member m operator values => exact codes_member m operator values

theorem codes (f : Filter) : Codes encode decode f := by
  refine ⟨f.codes_sound.plain, fun depth hdepth => ?_⟩
  rw [decode, if_pos (Json.fits_of_isSound f.isSound_encode hdepth)]
  exact f.codes_sound.decodes depth hdepth

end Filter

theorem SortDirection.codes (d : SortDirection) :
    Codes SortDirection.encode SortDirection.decode d :=
  .word (by cases d <;> rfl)

theorem OrderEntry.codes_list (order : List OrderEntry) :
    Codes OrderEntry.encodeList OrderEntry.decodeList order := by
  have hentries : Codes _ _ (order.map fun e => (e.member, e.direction)) :=
    .entries fun e _ => e.2.codes
  exact hentries.map (by simp [Function.comp_def])
    (by simp [OrderEntry.encodeList, Function.comp_def])

theorem Query.codes (q : Query) : Codes Query.encode Query.decode q := by
  have texts (members : List String) := Codes.list fun (m : String) (_ : m ∈ members) => .text m
  have filters := Codes.list fun (f : Filter) (_ : f ∈ q.filters) => f.codes
  have paths := Codes.list fun (p : JoinPath) (_ : p ∈ q.joinPaths) => p.codes
  have order := (OrderEntry.codes_list q.order).unlessEmpty
  have count (n : Option UInt64) := Codes.optional (o := n) (fun n _ => .uint64 n) (by simp)
  refine .record [("measures", some (.array (q.measures.map .text))),
    ("dimensions", some (.array (q.dimensions.map .text))),
    ("filters", some (.array (q.filters.map (·.encode)))),
    ("joinPaths", some (.array (q.joinPaths.map JoinPath.encode))),
    ("order", if q.order.isEmpty then none else some (OrderEntry.encodeList q.order)),
    ("limit", q.limit.map fun n => .nat n.toNat),
    ("offset", q.offset.map fun n => .nat n.toNat)] ?_ rfl (by decide) ?_
  · simp [Query.encode, Json.ofSlots, Filter.encodeList_eq_map]
  · exact .read ((texts _).withDefault []) (.read ((texts _).withDefault [])
      (.read (filters.withDefault []) (.read (paths.withDefault []) (.read order
        (.read (count q.limit) (.read (count q.offset) (.done q)))))))

namespace Dictionary

/-- A key behind all others is put at the end. -/
theorem place_append {k v : String} {xs : List (String × String)} (h : ∀ e ∈ xs, e.1 < k) :
    place k v xs = xs ++ [(k, v)] := by
  induction xs with
  | nil => rfl
  | cons e rest ih =>
    have ⟨he, hrest⟩ := List.forall_mem_cons.1 h
    have hlt : ¬ k < e.1 := fun hk => String.lt_irrefl _ (String.lt_trans he hk)
    have hne : ¬ k = e.1 := fun hk => String.lt_irrefl _ (hk ▸ he)
    rw [place, if_neg hlt, if_neg hne, ih hrest, List.cons_append]

theorem entries_foldl_insert (xs : List (String × String)) (d : Dictionary)
    (h : (d.entries ++ xs).Pairwise fun a b => a.1 < b.1) :
    (xs.foldl (fun d e => d.insert e.1 e.2) d).entries = d.entries ++ xs := by
  induction xs generalizing d with
  | nil => simp
  | cons e rest ih =>
    have hplace : (d.insert e.1 e.2).entries = d.entries ++ [e] :=
      place_append fun x hx => (List.pairwise_append.1 h).2.2 x hx e List.mem_cons_self
    rw [List.foldl_cons, ih, hplace, List.append_assoc, List.singleton_append]
    rwa [hplace, List.append_assoc, List.singleton_append]

theorem eq_of_entries {d d' : Dictionary} (h : d.entries = d'.entries) : d = d' := by
  cases d
  cases d'
  cases h
  rfl

theorem ofList_entries (d : Dictionary) : ofList d.entries = d :=
  eq_of_entries (entries_foldl_insert d.entries empty d.sorted)

theorem codes (d : Dictionary) : Codes encode decode d := by
  have hentries : Codes _ _ d.entries := .entries fun e _ => .text e.2
  exact hentries.map d.ofList_entries rfl

end Dictionary

/-! ## Requests -/

theorem ColumnConfig.codes (c : ColumnConfig) :
    Codes ColumnConfig.encode ColumnConfig.decode c := by
  have columns := Codes.list fun (s : String) (_ : s ∈ c.resolutionColumns) => .text s
  exact .record [("name", some (.text c.name)), ("type", some c.type.encode),
    ("source", some (.text c.source)), ("joinColumn", some (.text c.joinColumn)),
    ("resolutionColumns", some (.array (c.resolutionColumns.map .text))),
    ("isArrayType", some (.bool c.isArrayType))] rfl rfl (by decide)
    (.read (Codes.text _).required (.read c.type.codes.required (.read (Codes.text _).required
      (.read (Codes.text _).required (.read columns.required
        (.read ((Codes.bool _).withDefault false) (.done c)))))))

theorem SqlOverride.codes (o : SqlOverride) : Codes SqlOverride.encode SqlOverride.decode o :=
  .record [("fieldName", some (.text o.fieldName)), ("overrideSql", some (.text o.overrideSql)),
    ("type", some o.type.encode)] rfl rfl (by decide)
    (.read (Codes.text _).required (.read (Codes.text _).required
      (.read o.type.codes.required (.done o))))

theorem ResolutionConfig.codes (c : ResolutionConfig) :
    Codes ResolutionConfig.encode ResolutionConfig.decode c := by
  have configs := Codes.list fun (d : ColumnConfig) (_ : d ∈ c.columnConfigs) => d.codes
  have schemas := Codes.list fun (s : TableSchema) (_ : s ∈ c.tableSchemas) => s.codes
  have overrides := (Codes.list fun (o : SqlOverride) (_ : o ∈ c.overrides) => o.codes).unlessEmpty
  refine .record [("columnConfigs", some (.array (c.columnConfigs.map (·.encode)))),
    ("tableSchemas", some (.array (c.tableSchemas.map (·.encode)))),
    ("sqlOverrideConfigs",
      if c.overrides.isEmpty then none else some (.array (c.overrides.map (·.encode))))]
    ?_ rfl (by decide) ?_
  · simp [ResolutionConfig.encode, Json.ofSlots]
  · exact .read (configs.withDefault []) (.read (schemas.withDefault [])
      (.read overrides (.done c)))

theorem Request.codes (r : Request) : Codes Request.encode Request.decode r := by
  have schemas := Codes.list fun (s : TableSchema) (_ : s ∈ r.tableSchemas) => s.codes
  have projections := Codes.optional (o := r.columnProjections)
    (fun ps _ => .list fun (p : String) (_ : p ∈ ps) => .text p) (by simp)
  have context := Codes.optional (o := r.context) (fun d _ => d.codes)
    (by simp [Dictionary.encode, Json.record])
  refine .record [("query", some r.query.encode),
    ("tableSchemas", some (.array (r.tableSchemas.map (·.encode)))),
    ("resolutionConfig", some r.config.encode),
    ("columnProjections", r.columnProjections.map fun ps => .array (ps.map .text)),
    ("contextParams", r.context.map (·.encode))] ?_ rfl (by decide) ?_
  · simp [Request.encode, Json.ofSlots]
  · exact .read r.query.codes.required (.read schemas.required
      (.read (r.config.codes.withDefault {}) (.read projections (.read context (.done r)))))

/-- The text of a request that nests no deeper than documents may reads as that request. -/
theorem Request.decode_parse_render (r : Request) (nests : r.encode.depth ≤ 127) :
    (Json.parse r.encode.render).bind (Decoder.run Request.decode) = some r := by
  rw [r.codes.plain.parse_render, Option.bind_some]
  exact r.codes.decodes Decoder.maxDepth nests

/-- A filter inside `n` groups, each next to an empty group. -/
def Filter.wrap (f : Filter) : Nat → Filter
  | 0 => f
  | n + 1 => .any [.all [], f.wrap n]

/-- A request that nests as deep as a document may, with an order that names a member twice, the
greatest limit, both kinds of path nodes, and texts whose characters are escaped or lie beyond the
first plane. -/
def deepRequest : Request where
  query := {
    measures := ["orders.total"]
    dimensions := ["orders.\"id\"", "orders.naïve\n\x01😀"]
    filters := [(Filter.member "orders.total" .isIn ["\\", ""]).wrap 61, .any []]
    joinPaths := [[.join ⟨"orders", "customers", "customer_id"⟩, .single "regions"], []]
    order := [⟨"orders.total", .descending⟩, ⟨"orders.id", .ascending⟩,
      ⟨"orders.total", .ascending⟩]
    limit := some 18446744073709551615
    offset := some 0 }
  tableSchemas := [{
    name := "orders"
    sql := "SELECT *\tFROM orders"
    measures := [{ name := "total", sql := "SUM(amount)", type := .number }]
    dimensions := [{ name := "tags", sql := "tags", type := .stringArray, «alias» := some "Tags"
                     modifier := some { flattenArray := true } }]
    joins := [{ sql := "orders.id = customers.id" }] }]
  config := {
    columnConfigs := [{ name := "orders.tags", type := .stringArray, source := "tags"
                        joinColumn := "id", resolutionColumns := ["name"], isArrayType := true }]
    overrides := [{ fieldName := "orders.tags", overrideSql := "SPLIT(tags)", type := .string }] }
  columnProjections := some ["orders.total"]
  context := some (.ofList [("tenant", "π"), ("", "null")])

theorem deepRequest_decode_parse_render :
    deepRequest.encode.depth = 127 ∧
      (Json.parse deepRequest.encode.render).bind (Decoder.run Request.decode) =
        some deepRequest := by
  have nests : deepRequest.encode.depth = 127 := by decide +kernel
  exact ⟨nests, Request.decode_parse_render deepRequest (Nat.le_of_eq nests)⟩

end SemanticLayer
