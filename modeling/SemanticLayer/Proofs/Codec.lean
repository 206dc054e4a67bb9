import SemanticLayer.Codec.Schema
import SemanticLayer.Proofs.Dictionary
import SemanticLayer.Proofs.JsonText

/-!
# SemanticLayer.Proofs.Codec

Laws of encoders and decoders. `Codes encode decode a` says of one value that its document is plain
and decodes to the value again wherever it may nest as deep as it does. Each form of document that
decoders are made of has one law: texts, words, lists, and records of fields that may be left out.

A record is seen as its slots, one for each name, filled or not (`Json.ofSlots`), so that an encoder
that leaves a field out and a decoder that finds it missing speak of the same thing.
-/

namespace SemanticLayer

variable {α β : Type}

theorem mapM_map_eq_some {γ : Type} {f : α → β} {g : β → Option γ} {h : α → γ} {xs : List α}
    (hxs : ∀ x ∈ xs, g (f x) = some (h x)) : (xs.map f).mapM g = some (xs.map h) := by
  induction xs with
  | nil => rfl
  | cons x xs ih =>
    have ⟨hx, hrest⟩ := List.forall_mem_cons.1 hxs
    simp [hx, ih hrest]

namespace Json

theorem depthItems_le {items : List Json} {d : Nat} :
    depthItems items ≤ d ↔ ∀ j ∈ items, j.depth ≤ d := by
  induction items with
  | nil => simp [depthItems]
  | cons item rest ih => simp only [depthItems, Nat.max_le, ih, List.forall_mem_cons]

theorem depthFields_le {fields : List (Option String × Json)} {d : Nat} :
    depthFields fields ≤ d ↔ ∀ f ∈ fields, f.2.depth ≤ d := by
  induction fields with
  | nil => simp [depthFields]
  | cons f rest ih => simp only [depthFields, Nat.max_le, ih, List.forall_mem_cons]

theorem depth_array_le {items : List Json} {depth : Nat} (h : (array items).depth ≤ depth) :
    ∃ d, depth = d + 1 ∧ ∀ j ∈ items, j.depth ≤ d := by
  rw [Json.depth] at h
  exact ⟨depth - 1, by omega, depthItems_le.1 (by omega)⟩

theorem depth_record_le {fields : List (String × Json)} {depth : Nat}
    (h : (record fields).depth ≤ depth) : ∃ d, depth = d + 1 ∧ ∀ f ∈ fields, f.2.depth ≤ d := by
  rw [record, Json.depth] at h
  have hfields : depthFields (fields.map fun f => (some f.1, f.2)) ≤ depth - 1 := by omega
  exact ⟨depth - 1, by omega, fun f hf => depthFields_le.1 hfields _ (List.mem_map_of_mem hf)⟩

/-! ## Slots -/

/-- The record that holds the slots that are filled. -/
def ofSlots (slots : List (String × Option Json)) : Json :=
  .record (slots.flatMap fun s => field? s.1 s.2)

@[simp] theorem field?_some (name : String) (j : Json) : field? name (some j) = [(name, j)] := rfl

theorem mem_field? {name : String} {value : Option Json} {f : String × Json} :
    f ∈ field? name value ↔ f.1 = name ∧ f.2 ∈ value := by
  cases value <;> simp [field?, Prod.ext_iff, eq_comm]

theorem plain_ofSlots {slots : List (String × Option Json)}
    (h : ∀ s ∈ slots, ∀ j ∈ s.2, Plain j) : Plain (ofSlots slots) := by
  refine .record fun f hf => ?_
  obtain ⟨s, hs, hf⟩ := List.mem_flatMap.1 hf
  exact h s hs f.2 (mem_field?.1 hf).2

theorem depth_ofSlots_le {slots : List (String × Option Json)} {depth : Nat}
    (h : (ofSlots slots).depth ≤ depth) :
    ∃ d, depth = d + 1 ∧ ∀ s ∈ slots, ∀ j ∈ s.2, j.depth ≤ d := by
  obtain ⟨d, rfl, hd⟩ := depth_record_le h
  refine ⟨d, rfl, fun s hs j hj => hd (s.1, j) ?_⟩
  exact List.mem_flatMap.2 ⟨s, hs, mem_field?.2 ⟨rfl, hj⟩⟩

theorem filter_field? (name key : String) (value : Option Json) :
    (field? name value).filter (·.1 = key) = if name = key then field? name value else [] := by
  cases value <;> simp [field?, List.filter_cons]

theorem filter_slots {slots : List (String × Option Json)} {s : String × Option Json}
    (hnames : (slots.map (·.1)).Nodup) (hs : s ∈ slots) :
    (slots.flatMap fun s => field? s.1 s.2).filter (·.1 = s.1) = field? s.1 s.2 := by
  have hsplit (ts : List (String × Option Json)) :
      (ts.flatMap fun t => field? t.1 t.2).filter (·.1 = s.1) =
        (ts.filter (·.1 = s.1)).flatMap fun t => field? t.1 t.2 := by
    induction ts with
    | nil => rfl
    | cons t rest ih =>
      by_cases h : t.1 = s.1 <;> simp [filter_field?, ih, h]
  rw [hsplit, filter_eq_singleton hnames hs]
  simp

end Json

namespace Decoder

open Json (ofSlots)

theorem single_slots {slots : List (String × Option Json)} {s : String × Option Json}
    (hnames : (slots.map (·.1)).Nodup) (hs : s ∈ slots) :
    single ((slots.flatMap fun s => Json.field? s.1 s.2).map fun f => (some f.1, f.2)) s.1 =
      some s.2 := by
  have hfilter : (fun f : String × Json => decide ((some f.1, f.2).1 = some s.1)) =
      fun f => decide (f.1 = s.1) := by
    simp
  rw [single, List.filter_map, Function.comp_def, hfilter, Json.filter_slots hnames hs]
  cases s.2 <;> rfl

theorem slots_ofSlots {names : List String} (slots : List (String × Option Json))
    (hnames : slots.map (·.1) = names) (hdistinct : names.Nodup) :
    Decoder.slots names (ofSlots slots) = some (slots.map (·.2)) := by
  subst hnames
  have hkeys : ((slots.flatMap fun s => Json.field? s.1 s.2).map
      fun f => (some f.1, f.2)).all (·.1.isSome) = true := by
    simp
  rw [ofSlots, Json.record, Decoder.slots, named, if_pos hkeys]
  exact mapM_map_eq_some fun s hs => single_slots hdistinct hs

end Decoder

/-- The value is written as a plain document, and decoding that document gives the value. -/
structure Codes (encode : α → Json) (decode : Decoder α) (a : α) : Prop where
  plain : (encode a).Plain
  decodes : ∀ depth, (encode a).depth ≤ depth → decode depth (encode a) = some a

namespace Codes

variable {encode : α → Json} {decode : Decoder α} {a : α}

theorem text (s : String) : Codes .text Decoder.string s :=
  ⟨.text s, fun _ _ => rfl⟩

theorem bool (b : Bool) : Codes .bool Decoder.bool b :=
  ⟨.bool b, fun _ _ => rfl⟩

theorem uint64 (n : UInt64) : Codes (fun n => .nat n.toNat) Decoder.uint64 n := by
  refine ⟨.nat n.toNat, fun _ _ => ?_⟩
  rw [Decoder.uint64, if_pos n.toNat_lt_size, UInt64.ofNat_toNat]

theorem word {words : List (String × α)} {word : α → String}
    (h : words.lookup (word a) = some a) :
    Codes (fun a => .text (word a)) (Decoder.oneOf words) a :=
  ⟨.text (word a), fun depth _ => by cases depth <;> exact h⟩

theorem list {as : List α} (h : ∀ a ∈ as, Codes encode decode a) :
    Codes (fun as => .array (as.map encode)) (Decoder.list decode) as := by
  constructor
  · refine .array fun j hj => ?_
    obtain ⟨a, ha, rfl⟩ := List.mem_map.1 hj
    exact (h a ha).plain
  · intro depth hdepth
    obtain ⟨d, rfl, hitems⟩ := Json.depth_array_le hdepth
    rw [Decoder.list, mapM_map_eq_some fun a ha => (h a ha).decodes d
      (hitems _ (List.mem_map_of_mem ha))]
    exact congrArg some (List.map_id as)

theorem entries {as : List (String × α)} (h : ∀ a ∈ as, Codes encode decode a.2) :
    Codes (fun as => .record (as.map fun a => (a.1, encode a.2))) (Decoder.entries decode) as := by
  constructor
  · refine .record fun f hf => ?_
    obtain ⟨a, ha, rfl⟩ := List.mem_map.1 hf
    exact (h a ha).plain
  · intro depth hdepth
    obtain ⟨d, rfl, hfields⟩ := Json.depth_record_le hdepth
    rw [Json.record, Decoder.entries, List.map_map, mapM_map_eq_some (h := id)]
    · exact congrArg some (List.map_id as)
    · intro a ha
      simp [(h a ha).decodes d (hfields _ (List.mem_map_of_mem ha))]

/-- A value that is decoded by way of another one. -/
theorem map {encode' : β → Json} {f : α → β} {b : β} (h : Codes encode decode a) (hb : f a = b)
    (hencode : encode' b = encode a) :
    Codes encode' (fun depth j => (decode depth j).map f) b := by
  refine ⟨hencode ▸ h.plain, fun depth hdepth => ?_⟩
  rw [hencode] at hdepth ⊢
  rw [h.decodes depth hdepth, Option.map_some, hb]

end Codes

/-- The slot is plain if it is filled, and reading it gives the value. -/
structure Fills (slot : Option Json) (read : Nat → Option Json → Option α) (a : α) : Prop where
  plain : ∀ j ∈ slot, j.Plain
  reads : ∀ depth, (∀ j ∈ slot, j.depth ≤ depth) → read depth slot = some a

/-- Slots that are read one after the other to build a value. -/
structure Builds (slots : List (String × Option Json)) (build : Nat → Option α) (a : α) :
    Prop where
  plain : ∀ s ∈ slots, ∀ j ∈ s.2, j.Plain
  builds : ∀ depth, (∀ s ∈ slots, ∀ j ∈ s.2, j.depth ≤ depth) → build depth = some a

theorem Builds.done (a : α) : Builds [] (fun _ => some a) a :=
  ⟨by simp, fun _ _ => rfl⟩

theorem Builds.read {name : String} {slot : Option Json} {read : Nat → Option Json → Option β}
    {b : β} {slots : List (String × Option Json)} {build : Nat → β → Option α} {a : α}
    (h : Fills slot read b) (hrest : Builds slots (fun depth => build depth b) a) :
    Builds ((name, slot) :: slots) (fun depth => read depth slot >>= build depth) a := by
  constructor
  · exact List.forall_mem_cons.2 ⟨h.plain, hrest.plain⟩
  · intro depth hdepth
    have ⟨hslot, hslots⟩ := List.forall_mem_cons.1 hdepth
    rw [h.reads depth hslot]
    exact hrest.builds depth hslots

namespace Codes

variable {encode : α → Json} {decode : Decoder α} {a : α}

theorem required (h : Codes encode decode a) :
    Fills (some (encode a)) (Decoder.required decode) a :=
  ⟨fun _ hj => Option.mem_some.1 hj ▸ h.plain, fun depth hdepth => h.decodes depth (hdepth _ rfl)⟩

theorem withDefault (h : Codes encode decode a) (default : α) :
    Fills (some (encode a)) (Decoder.withDefault decode default) a :=
  ⟨h.required.plain, h.required.reads⟩

/-- A list that is left out when it is empty. -/
theorem unlessEmpty {encode : List α → Json} {decode : Decoder (List α)} {as : List α}
    (h : Codes encode decode as) :
    Fills (if as.isEmpty then none else some (encode as)) (Decoder.withDefault decode []) as := by
  cases as with
  | nil => exact ⟨by simp, fun _ _ => rfl⟩
  | cons a as => exact h.withDefault []

theorem optional {o : Option α} (h : ∀ a ∈ o, Codes encode decode a)
    (hnull : ∀ a, encode a ≠ .null) : Fills (o.map encode) (Decoder.optional decode) o := by
  cases o with
  | none => exact ⟨by simp, fun _ _ => rfl⟩
  | some a =>
    refine ⟨(h a rfl).required.plain, fun depth hdepth => ?_⟩
    rw [Option.map_some, Decoder.optional.eq_3 _ _ _ (hnull a),
      (h a rfl).decodes depth (hdepth _ rfl), Option.map_some]

theorem record {names : List String} {build : Nat → List (Option Json) → Option α}
    (slots : List (String × Option Json)) (hencode : encode a = .ofSlots slots)
    (hnames : slots.map (·.1) = names) (hdistinct : names.Nodup)
    (h : Builds slots (fun depth => build depth (slots.map (·.2))) a) :
    Codes encode (Decoder.record names build) a := by
  constructor
  · rw [hencode]
    exact Json.plain_ofSlots h.plain
  · intro depth hdepth
    rw [hencode] at hdepth ⊢
    obtain ⟨d, rfl, hslots⟩ := Json.depth_ofSlots_le hdepth
    simp only [Decoder.record, Decoder.slots_ofSlots slots hnames hdistinct, h.builds d hslots]

end Codes

end SemanticLayer
