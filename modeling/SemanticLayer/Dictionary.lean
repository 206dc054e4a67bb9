/-!
# SemanticLayer.Dictionary

Maps from text to text, kept in the order of their keys.
-/

namespace SemanticLayer

structure Dictionary where
  entries : List (String × String) := []
  sorted : entries.Pairwise fun a b => a.1 < b.1 := by exact .nil

namespace Dictionary

instance : DecidableEq Dictionary
  | ⟨xs, _⟩, ⟨ys, _⟩ =>
    if h : xs = ys then isTrue (by subst h; rfl) else isFalse fun e => h (congrArg entries e)

def empty : Dictionary := {}

/-- Put an entry in its place, over an entry of the same key. -/
def place (k v : String) : List (String × String) → List (String × String)
  | [] => [(k, v)]
  | e :: rest =>
    if k < e.1 then (k, v) :: e :: rest
    else if k = e.1 then (k, v) :: rest
    else e :: place k v rest

theorem mem_place {k v : String} {xs : List (String × String)} {e : String × String}
    (h : e ∈ place k v xs) : e = (k, v) ∨ e ∈ xs := by
  induction xs with
  | nil => simpa [place] using h
  | cons x rest ih =>
    simp only [place] at h
    split at h
    · simpa using h
    · split at h
      · rcases List.mem_cons.1 h with h | h
        · exact .inl h
        · exact .inr (List.mem_cons_of_mem _ h)
      · rcases List.mem_cons.1 h with h | h
        · exact .inr (h ▸ List.mem_cons_self)
        · exact (ih h).imp id (List.mem_cons_of_mem _)

theorem place_sorted {k v : String} {xs : List (String × String)}
    (h : xs.Pairwise fun a b => a.1 < b.1) : (place k v xs).Pairwise fun a b => a.1 < b.1 := by
  induction xs with
  | nil => simp [place]
  | cons x rest ih =>
    have ⟨hx, hrest⟩ := List.pairwise_cons.1 h
    simp only [place]
    split
    · rename_i hk
      refine List.pairwise_cons.2 ⟨fun e he => ?_, h⟩
      rcases List.mem_cons.1 he with rfl | he
      · exact hk
      · exact String.lt_trans hk (hx e he)
    · split
      · rename_i hk
        exact List.pairwise_cons.2 ⟨fun e he => hk ▸ hx e he, hrest⟩
      · rename_i hlt hne
        refine List.pairwise_cons.2 ⟨fun e he => ?_, ih hrest⟩
        rcases mem_place he with rfl | he
        · exact Std.lt_of_le_of_ne (String.not_lt.1 hlt) (Ne.symm hne)
        · exact hx e he

def insert (d : Dictionary) (k v : String) : Dictionary where
  entries := place k v d.entries
  sorted := place_sorted d.sorted

/-- The last entry of a key is the one that stays. -/
def ofList (xs : List (String × String)) : Dictionary :=
  xs.foldl (fun d e => d.insert e.1 e.2) empty

def get? (d : Dictionary) (k : String) : Option String :=
  (d.entries.find? (·.1 = k)).map (·.2)

def contains (d : Dictionary) (k : String) : Bool := (d.get? k).isSome

end Dictionary
end SemanticLayer
