import SemanticLayer.Join.Graph

/-!
# SemanticLayer.Proofs.Dictionary

What a dictionary answers: the last entry of a key that was put in, and the only one when the keys
are distinct.
-/

namespace SemanticLayer

theorem filter_eq_singleton {α β : Type} [DecidableEq β] {f : α → β} {xs : List α} {x : α}
    (h : (xs.map f).Nodup) (hx : x ∈ xs) : xs.filter (fun y => f y = f x) = [x] := by
  induction xs with
  | nil => cases hx
  | cons y rest ih =>
    obtain ⟨hy, hrest⟩ := List.nodup_cons.1 h
    rcases List.mem_cons.1 hx with rfl | hx
    · have hnone : rest.filter (fun y => f y = f x) = [] := by
        apply List.filter_eq_nil_iff.2
        intro z hz he
        exact hy (of_decide_eq_true he ▸ List.mem_map_of_mem hz)
      simp [hnone]
    · have hne : ¬ f y = f x := fun he => hy (he ▸ List.mem_map_of_mem hx)
      simp [hne, ih hrest hx]

theorem find?_of_filter_eq_singleton {α : Type} {p : α → Bool} {xs : List α} {x : α}
    (h : xs.filter p = [x]) : xs.reverse.find? p = some x := by
  rw [← List.head?_filter, List.filter_reverse, h]
  rfl

namespace Dictionary

theorem find?_place_self (k v : String) (xs : List (String × String)) :
    (place k v xs).find? (·.1 = k) = some (k, v) := by
  induction xs with
  | nil => simp [place]
  | cons e rest ih =>
    simp only [place]
    split
    · simp
    · split
      · simp
      · rename_i hne
        simp [Ne.symm hne, ih]

theorem find?_place_of_ne {k k' : String} (h : k' ≠ k) (v : String)
    (xs : List (String × String)) : (place k v xs).find? (·.1 = k') = xs.find? (·.1 = k') := by
  induction xs with
  | nil => simp [place, Ne.symm h]
  | cons e rest ih =>
    simp only [place]
    split
    · simp [Ne.symm h]
    · split
      · rename_i he
        simp [Ne.symm h, ← he]
      · simp only [List.find?_cons, ih]

theorem get?_insert (d : Dictionary) (k v k' : String) :
    (d.insert k v).get? k' = if k' = k then some v else d.get? k' := by
  split
  · rename_i he
    rw [he, get?, insert, find?_place_self]
    rfl
  · rename_i hne
    rw [get?, insert, find?_place_of_ne hne, get?]

theorem get?_foldl_insert (xs : List (String × String)) (d : Dictionary) (k : String) :
    (xs.foldl (fun d e => d.insert e.1 e.2) d).get? k =
      ((xs.reverse.find? (·.1 = k)).map (·.2)).or (d.get? k) := by
  induction xs generalizing d with
  | nil => simp
  | cons e rest ih =>
    rw [List.foldl_cons, ih, List.reverse_cons, List.find?_append, get?_insert]
    cases rest.reverse.find? (·.1 = k) with
    | some x => simp
    | none =>
      by_cases he : e.1 = k
      · simp [he]
      · simp [he, Ne.symm he]

theorem get?_ofList (xs : List (String × String)) (k : String) :
    (ofList xs).get? k = (xs.reverse.find? (·.1 = k)).map (·.2) := by
  have hempty : empty.get? k = none := rfl
  rw [ofList, get?_foldl_insert, hempty, Option.or_none]

theorem get?_ofList_of_mem {xs : List (String × String)} (h : (xs.map (·.1)).Nodup)
    {e : String × String} (he : e ∈ xs) : (ofList xs).get? e.1 = some e.2 := by
  rw [get?_ofList, find?_of_filter_eq_singleton (filter_eq_singleton h he)]
  rfl

/-- A key that was put in has the value of one of its entries. -/
theorem exists_get?_ofList {xs : List (String × String)} {e : String × String} (he : e ∈ xs) :
    ∃ e' ∈ xs, e'.1 = e.1 ∧ (ofList xs).get? e.1 = some e'.2 := by
  have hfind : (xs.reverse.find? (·.1 = e.1)).isSome := by
    rw [List.find?_isSome]
    exact ⟨e, List.mem_reverse.2 he, by simp⟩
  obtain ⟨e', he'⟩ := Option.isSome_iff_exists.1 hfind
  refine ⟨e', List.mem_reverse.1 (List.mem_of_find?_eq_some he'), ?_, ?_⟩
  · simpa using List.find?_some he'
  · rw [get?_ofList, he']
    rfl

theorem get?_ofList_eq_none {xs : List (String × String)} {k : String}
    (h : ∀ e ∈ xs, e.1 ≠ k) : (ofList xs).get? k = none := by
  have hnone : xs.reverse.find? (·.1 = k) = none := by
    apply List.find?_eq_none.2
    intro e he
    simpa using h e (List.mem_reverse.1 he)
  rw [get?_ofList, hnone]
  rfl

end Dictionary

theorem get?_tableSql {schemas : List TableSchema} (h : (schemas.map (·.name)).Nodup)
    {s : TableSchema} (hs : s ∈ schemas) : (tableSql schemas).get? s.name = some s.sql := by
  have hkeys : ((schemas.map fun s => (s.name, s.sql)).map (·.1)).Nodup := by
    simpa [Function.comp_def] using h
  exact Dictionary.get?_ofList_of_mem hkeys (List.mem_map_of_mem (f := fun s => (s.name, s.sql)) hs)

end SemanticLayer
