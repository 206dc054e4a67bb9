import SemanticLayer.Text.Quoted

/-!
# SemanticLayer.Proofs.Text

Laws of the text functions: `collapse` undoes `expand`, `cutAt` and `splitAt` find the first and all
occurrences of a character, `trim` takes away the padding of a text and nothing else, and `unquote`
undoes `quoteWith`. `closeQuoted` finds the end of a quoted name, whatever quotes are in it and
whatever follows (`closeQuoted_eq_some_iff`).
-/

namespace SemanticLayer
namespace Text

/-! ## Expanding and collapsing -/

theorem expand_append (c : Char) (w xs ys : List Char) :
    expand c w (xs ++ ys) = expand c w xs ++ expand c w ys := by
  induction xs with
  | nil => rfl
  | cons x rest ih =>
    simp only [List.cons_append, expand, ih]
    split <;> simp

theorem expand_of_not_mem {c : Char} {w xs : List Char} (h : c ∉ xs) : expand c w xs = xs := by
  induction xs with
  | nil => rfl
  | cons x rest ih =>
    have hx : ¬ x = c := fun e => h (by simp [e])
    have hrest : c ∉ rest := fun e => h (by simp [e])
    simp [expand, hx, ih hrest]

theorem mem_expand {c x : Char} {w xs : List Char} (h : x ∈ expand c w xs) :
    x ∈ w ∨ x ≠ c ∧ x ∈ xs := by
  induction xs with
  | nil => simp [expand] at h
  | cons y rest ih =>
    simp only [expand] at h
    split at h
    · rcases List.mem_append.1 h with h | h
      · exact .inl h
      · exact (ih h).imp id fun ⟨hne, hmem⟩ => ⟨hne, List.mem_cons_of_mem _ hmem⟩
    · rename_i hy
      rcases List.mem_cons.1 h with rfl | h
      · exact .inr ⟨hy, List.mem_cons_self⟩
      · exact (ih h).imp id fun ⟨hne, hmem⟩ => ⟨hne, List.mem_cons_of_mem _ hmem⟩

theorem collapse_cons_of_ne {c d x : Char} (h : x ≠ c) (xs : List Char) :
    collapse c d (x :: xs) = x :: collapse c d xs := by
  cases xs with
  | nil => rfl
  | cons y rest => simp [collapse, h]

theorem collapse_expand (c : Char) (xs : List Char) : collapse c c (expand c [c, c] xs) = xs := by
  induction xs with
  | nil => rfl
  | cons x rest ih =>
    by_cases h : x = c
    · subst h
      simp [expand, collapse, ih]
    · simp [expand, h, collapse_cons_of_ne h, ih]

/-! ## Cutting and splitting -/

theorem cutAt_append {c : Char} {xs : List Char} (h : c ∉ xs) (ys : List Char) :
    cutAt c (xs ++ c :: ys) = some (xs, ys) := by
  induction xs with
  | nil => simp [cutAt]
  | cons x rest ih =>
    have hx : ¬ x = c := fun e => h (by simp [e])
    have hrest : c ∉ rest := fun e => h (by simp [e])
    simp [cutAt, hx, ih hrest]

theorem cutAt_eq_some {c : Char} {xs : List Char} {parts : List Char × List Char}
    (h : cutAt c xs = some parts) : xs = parts.1 ++ c :: parts.2 ∧ c ∉ parts.1 := by
  induction xs generalizing parts with
  | nil => simp [cutAt] at h
  | cons x rest ih =>
    simp only [cutAt] at h
    split at h
    · rename_i hx
      cases h
      simp [hx]
    · rename_i hx
      obtain ⟨inner, hinner, rfl⟩ := Option.map_eq_some_iff.1 h
      obtain ⟨hrest, hmem⟩ := ih hinner
      refine ⟨by simp [hrest], ?_⟩
      simp [Ne.symm hx, hmem]

theorem cutAt_eq_none {c : Char} {xs : List Char} (h : cutAt c xs = none) : c ∉ xs := by
  induction xs with
  | nil => simp
  | cons x rest ih =>
    simp only [cutAt] at h
    split at h
    · cases h
    · rename_i hx
      simp [Ne.symm hx, ih (Option.map_eq_none_iff.1 h)]

theorem splitAt_of_not_mem {c : Char} {xs : List Char} (h : c ∉ xs) : splitAt c xs = [xs] := by
  induction xs with
  | nil => rfl
  | cons x rest ih =>
    have hx : ¬ x = c := fun e => h (by simp [e])
    have hrest : c ∉ rest := fun e => h (by simp [e])
    simp [splitAt, hx, ih hrest]

theorem splitAt_append {c : Char} {xs : List Char} (h : c ∉ xs) (ys : List Char) :
    splitAt c (xs ++ c :: ys) = xs :: splitAt c ys := by
  induction xs with
  | nil => simp [splitAt]
  | cons x rest ih =>
    have hx : ¬ x = c := fun e => h (by simp [e])
    have hrest : c ∉ rest := fun e => h (by simp [e])
    simp [splitAt, hx, ih hrest]

theorem length_splitAt (c : Char) (xs : List Char) : (splitAt c xs).length = xs.count c + 1 := by
  induction xs with
  | nil => rfl
  | cons x rest ih =>
    simp only [splitAt]
    split
    · rename_i hx
      simp [hx, ih]
    · rename_i hx
      split
      · rename_i hnil
        simp [hnil] at ih
      · rename_i piece pieces hpieces
        rw [hpieces] at ih
        rw [List.count_cons_of_ne hx]
        simpa using ih

/-- A text with one `c` in a known place splits in two only if there is no other one. -/
theorem splitAt_append_eq_pair {c : Char} {xs ys left right : List Char}
    (h : splitAt c (xs ++ c :: ys) = [left, right]) : left = xs ∧ right = ys := by
  have hlen := length_splitAt c (xs ++ c :: ys)
  rw [h] at hlen
  simp only [List.length_cons, List.length_nil, List.count_append, List.count_cons_self] at hlen
  have hxs : c ∉ xs := List.count_eq_zero.1 (by omega)
  have hys : c ∉ ys := List.count_eq_zero.1 (by omega)
  rw [splitAt_append hxs, splitAt_of_not_mem hys] at h
  cases h
  exact ⟨rfl, rfl⟩

/-! ## Trimming -/

/-- The text without the white space at its end. -/
def trimEnd (cs : List Char) : List Char := (cs.reverse.dropWhile isBlank).reverse

theorem trim_eq (cs : List Char) : trim cs = trimEnd (cs.dropWhile isBlank) := rfl

theorem trimEnd_append_cons {x : Char} (h : isBlank x = false) (xs ys : List Char) :
    trimEnd (xs ++ x :: ys) = xs ++ x :: trimEnd ys := by
  simp only [trimEnd, List.reverse_append, List.reverse_cons, List.append_assoc,
    List.singleton_append, List.dropWhile_append]
  split
  · rename_i hnil
    simp [List.isEmpty_iff.1 hnil, h]
  · simp

theorem trimEnd_append_blank {ws : List Char} (h : ∀ b ∈ ws, isBlank b = true) (cs : List Char) :
    trimEnd (cs ++ ws) = trimEnd cs := by
  rw [trimEnd, List.reverse_append, List.dropWhile_append_of_pos (by simpa using h), trimEnd]

theorem trimEnd_eq_self {cs : List Char} (h : ∀ c ∈ cs.getLast?, isBlank c = false) :
    trimEnd cs = cs := by
  rcases List.eq_nil_or_concat cs with rfl | ⟨rest, c, rfl⟩
  · rfl
  · have hc : isBlank c = false := h c (by simp)
    simp [trimEnd, hc]

/-- No white space at the start of the text. -/
def StartsSolid (cs : List Char) : Prop := ∀ c ∈ cs.head?, isBlank c = false

/-- No white space at the end of the text. -/
def EndsSolid (cs : List Char) : Prop := ∀ c ∈ cs.getLast?, isBlank c = false

instance (cs : List Char) : Decidable (StartsSolid cs) :=
  decidable_of_iff (cs.head?.all fun c => !isBlank c) (by simp [StartsSolid, Option.all_eq_true])

instance (cs : List Char) : Decidable (EndsSolid cs) :=
  decidable_of_iff (cs.getLast?.all fun c => !isBlank c) (by simp [EndsSolid, Option.all_eq_true])

theorem dropWhile_pad {ws cs : List Char} (hws : ∀ b ∈ ws, isBlank b = true)
    (h : StartsSolid cs) : (ws ++ cs).dropWhile isBlank = cs := by
  rw [List.dropWhile_append_of_pos hws]
  cases cs with
  | nil => rfl
  | cons c rest => simp [h c rfl]

theorem trim_pad {before cs after : List Char} (hb : ∀ b ∈ before, isBlank b = true)
    (ha : ∀ b ∈ after, isBlank b = true) (hs : StartsSolid cs) (he : EndsSolid cs) :
    trim (before ++ cs ++ after) = cs := by
  cases cs with
  | nil =>
    have hall : ∀ b ∈ before ++ after, isBlank b = true := by
      intro b hmem
      exact (List.mem_append.1 hmem).elim (hb b) (ha b)
    have hnil : (before ++ after ++ []).dropWhile isBlank = [] := List.dropWhile_append_of_pos hall
    rw [List.append_nil, trim_eq, ← List.append_nil (before ++ after), hnil]
    rfl
  | cons c rest =>
    have hsolid : StartsSolid (c :: rest ++ after) := hs
    rw [List.append_assoc, trim_eq, dropWhile_pad hb hsolid, trimEnd_append_blank ha,
      trimEnd_eq_self he]

theorem trim_eq_self {cs : List Char} (hs : StartsSolid cs) (he : EndsSolid cs) : trim cs = cs := by
  have h : trim ([] ++ cs ++ []) = cs := trim_pad (by simp) (by simp) hs he
  simpa using h

theorem endsSolid_trim (cs : List Char) : EndsSolid (trim cs) := by
  intro c hc
  rw [trim, List.getLast?_reverse] at hc
  have hhead := List.head?_dropWhile_not isBlank (cs.dropWhile isBlank).reverse
  rw [hc] at hhead
  exact hhead

theorem startsSolid_trim (cs : List Char) : StartsSolid (trim cs) := by
  intro c hc
  have hprefix : trim cs <+: cs.dropWhile isBlank := by
    rw [trim, ← List.reverse_suffix, List.reverse_reverse]
    exact List.dropWhile_suffix _
  obtain ⟨rest, hrest⟩ := hprefix
  obtain ⟨tail, htail⟩ := List.head?_eq_some_iff.1 hc
  have hhead := List.head?_dropWhile_not isBlank cs
  rw [← hrest, htail] at hhead
  exact hhead

/-! ## Quoting -/

theorem mem_quoteWith {q x : Char} {cs : List Char} (h : x ∈ quoteWith q cs) : x = q ∨ x ∈ cs := by
  simp only [quoteWith, List.cons_append, List.mem_cons, List.mem_append, List.not_mem_nil,
    or_false] at h
  rcases h with h | h | h
  · exact .inl h
  · rcases mem_expand h with h | ⟨_, h⟩
    · exact .inl (by simpa using h)
    · exact .inr h
  · exact .inl h

theorem startsSolid_quoteWith (cs : List Char) : StartsSolid (quoteWith '"' cs) := by
  intro c hc
  cases hc
  rfl

theorem endsSolid_quoteWith (cs : List Char) : EndsSolid (quoteWith '"' cs) := by
  intro c hc
  simp only [quoteWith, List.getLast?_concat, Option.mem_def, Option.some.injEq] at hc
  subst hc
  rfl

theorem unquote_quoteWith (cs : List Char) : unquote (quoteWith '"' cs) = cs := by
  simp only [unquote, trim_eq_self (startsSolid_quoteWith cs) (endsSolid_quoteWith cs)]
  simp [quoteWith, insideQuotes, collapse_expand]

theorem unquote_of_no_quote {cs : List Char} (hq : cs.head? ≠ some '"') (hs : StartsSolid cs)
    (he : EndsSolid cs) : unquote cs = cs := by
  have hinside : insideQuotes cs = none := by
    unfold insideQuotes
    split
    · exact absurd rfl hq
    · rfl
  simp [unquote, trim_eq_self hs he, hinside]

/-- A quoted name is read up to its closing quote, which no other quote follows. -/
theorem closeQuoted_expand (name : List Char) {rest : List Char} (h : rest.head? ≠ some '"') :
    closeQuoted (expand '"' ['"', '"'] name ++ '"' :: rest) = some (name, rest) := by
  induction name with
  | nil =>
    rw [expand, List.nil_append, closeQuoted]
    rintro rest' rfl
    exact h rfl
  | cons c name ih =>
    by_cases hc : c = '"'
    · subst hc
      simp [expand, closeQuoted, ih]
    · simp [expand, hc, closeQuoted, ih]

theorem closeQuoted_eq_some_iff {cs name rest : List Char} :
    closeQuoted cs = some (name, rest) ↔
      cs = expand '"' ['"', '"'] name ++ '"' :: rest ∧ rest.head? ≠ some '"' := by
  constructor
  · intro h
    fun_induction closeQuoted cs generalizing name with
    | case1 => cases h
    | case2 cs ih =>
      obtain ⟨⟨name, rest⟩, hread, h⟩ := Option.map_eq_some_iff.1 h
      cases h
      obtain ⟨rfl, hrest⟩ := ih hread
      exact ⟨by simp [expand], hrest⟩
    | case3 cs hnot =>
      cases h
      refine ⟨rfl, fun hhead => ?_⟩
      obtain ⟨tail, rfl⟩ := List.head?_eq_some_iff.1 hhead
      exact hnot tail rfl
    | case4 c cs _ hc ih =>
      obtain ⟨⟨name, rest⟩, hread, h⟩ := Option.map_eq_some_iff.1 h
      cases h
      obtain ⟨rfl, hrest⟩ := ih hread
      exact ⟨by rw [expand, if_neg hc, List.cons_append], hrest⟩
  · rintro ⟨rfl, hrest⟩
    exact closeQuoted_expand name hrest

end Text
end SemanticLayer
