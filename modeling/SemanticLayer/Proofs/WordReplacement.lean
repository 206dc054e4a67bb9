import SemanticLayer.Text.Substitution

/-!
# SemanticLayer.Proofs.WordReplacement

Where `replaceWord` replaces. A text is found in two ways: `occurs` looks for it anywhere
(`occurs_iff_infix`), `occursWord` only between two word boundaries (`occursWord_iff`).

The scan of `replaceWord` cuts its text into pieces, and puts the new text where the searched text
stands between them. `IsCut` says so for whatever new text, with one lemma for each step that the
scan can take; `exists_isCut` runs it to the end and counts the pieces.
-/

namespace SemanticLayer
namespace Text

/-! ## Finding a text -/

theorem occurs_iff_infix {p cs : List Char} : occurs p cs = true ↔ p <:+: cs := by
  induction cs with
  | nil => simp [occurs]
  | cons c rest ih =>
    rw [occurs, Bool.or_eq_true, ih, List.isPrefixOf_iff_prefix, List.infix_cons_iff]

/-- The text `p` stands somewhere in `cs`, with a word boundary before and after it. -/
def IsWordIn (p cs : List Char) : Prop :=
  ∃ before after, cs = before ++ p ++ after ∧
    isBoundary before.getLast? (p ++ after).head? = true ∧
    isBoundary (before ++ p).getLast? after.head? = true

/-- The search behind `occursWord`; `before` is the character just passed. -/
def occursWordFrom (p : List Char) : Option Char → List Char → Bool
  | before, [] => wordAt p before []
  | before, c :: rest => wordAt p before (c :: rest) || occursWordFrom p (some c) rest

def occursWord (p cs : List Char) : Bool := occursWordFrom p none cs

theorem wordAt_iff {p rest : List Char} {before : Option Char} :
    wordAt p before rest = true ↔
      ∃ after, rest = p ++ after ∧ isBoundary before rest.head? = true ∧
        isBoundary (p.getLast?.or before) after.head? = true := by
  rw [wordAt, Bool.and_eq_true, Bool.and_eq_true, List.isPrefixOf_iff_prefix]
  constructor
  · rintro ⟨⟨⟨after, rfl⟩, hstart⟩, hend⟩
    exact ⟨after, rfl, hstart, by simpa using hend⟩
  · rintro ⟨after, rfl, hstart, hend⟩
    exact ⟨⟨List.prefix_append p after, hstart⟩, by simpa using hend⟩

theorem getLast?_cons_or (c : Char) (cs : List Char) (before : Option Char) :
    (c :: cs).getLast?.or before = cs.getLast?.or (some c) := by
  rw [List.getLast?_cons]
  cases cs.getLast? <;> rfl

theorem occursWordFrom_iff {p cs : List Char} {before : Option Char} :
    occursWordFrom p before cs = true ↔
      ∃ passed after, cs = passed ++ p ++ after ∧
        wordAt p (passed.getLast?.or before) (p ++ after) = true := by
  induction cs generalizing before with
  | nil =>
    rw [occursWordFrom]
    constructor
    · intro h
      obtain ⟨after, hnil, _⟩ := wordAt_iff.1 h
      refine ⟨[], after, hnil, ?_⟩
      rw [← hnil]
      exact h
    · rintro ⟨passed, after, hnil, h⟩
      obtain ⟨rfl, rfl, rfl⟩ : passed = [] ∧ p = [] ∧ after = [] := by simpa using hnil
      exact h
  | cons c rest ih =>
    rw [occursWordFrom, Bool.or_eq_true, ih]
    constructor
    · rintro (h | ⟨passed, after, rfl, h⟩)
      · obtain ⟨after, hrest, _⟩ := wordAt_iff.1 h
        refine ⟨[], after, hrest, ?_⟩
        rw [← hrest]
        exact h
      · refine ⟨c :: passed, after, rfl, ?_⟩
        rw [getLast?_cons_or]
        exact h
    · rintro ⟨passed, after, hrest, h⟩
      cases passed with
      | nil =>
        left
        rw [hrest]
        exact h
      | cons x passed =>
        obtain ⟨rfl, rfl⟩ := List.cons.inj hrest
        rw [getLast?_cons_or] at h
        exact .inr ⟨passed, after, rfl, h⟩

theorem occursWord_iff {p cs : List Char} : occursWord p cs = true ↔ IsWordIn p cs := by
  rw [occursWord, occursWordFrom_iff, IsWordIn]
  refine exists_congr fun before => exists_congr fun after => and_congr_right fun _ => ?_
  simp only [wordAt_iff, List.append_cancel_left_eq, List.getLast?_append, Option.or_none]
  constructor
  · rintro ⟨_, rfl, h⟩
    exact h
  · intro h
    exact ⟨after, rfl, h⟩

instance (p cs : List Char) : Decidable (IsWordIn p cs) :=
  decidable_of_iff _ occursWord_iff

/-! ## Pieces -/

theorem length_intercalate (sep : List Char) (pieces : List (List Char)) :
    (sep.intercalate pieces).length =
      pieces.flatten.length + (pieces.length - 1) * sep.length := by
  induction pieces with
  | nil => simp
  | cons q qs ih =>
    cases qs with
    | nil => simp
    | cons r rs =>
      rw [List.intercalate_cons_cons, List.length_append, List.length_append, ih]
      simp only [List.flatten_cons, List.length_append, List.length_cons, Nat.add_sub_cancel,
        Nat.succ_mul]
      omega

/-- The scan that comes to `cs` after `before` cuts the text into `pieces`, with `p` between them,
and puts the new text there. -/
structure IsCut (p : List Char) (before : Option Char) (cs : List Char)
    (pieces : List (List Char)) : Prop where
  text : p.intercalate pieces = cs
  replaced : ∀ new, replaceWordFrom p new 0 before cs = new.intercalate pieces

namespace IsCut

variable {p : List Char} {before : Option Char}

theorem nil (h : wordAt p before [] = false) : IsCut p before [] [[]] where
  text := by simp
  replaced new := by simp [replaceWordFrom, h]

/-- Only the empty text is found at the end. -/
theorem nil_of_wordAt (h : wordAt p before [] = true) : IsCut p before [] [[], []] where
  text := by
    obtain ⟨after, hnil, _⟩ := wordAt_iff.1 h
    obtain ⟨rfl, rfl⟩ := List.append_eq_nil_iff.1 hnil.symm
    rfl
  replaced new := by simp [replaceWordFrom, h]

theorem keep {c : Char} {rest q : List Char} {qs : List (List Char)}
    (h : wordAt p before (c :: rest) = false) (ih : IsCut p (some c) rest (q :: qs)) :
    IsCut p before (c :: rest) ((c :: q) :: qs) where
  text := by rw [List.intercalate_cons_cons_left, ih.text]
  replaced new := by simp [replaceWordFrom, h, ih.replaced]

/-- The empty text is found between two characters, and the scan moves on by one. -/
theorem empty {c : Char} {rest q : List Char} {qs : List (List Char)}
    (h : wordAt [] before (c :: rest) = true) (ih : IsCut [] (some c) rest (q :: qs)) :
    IsCut [] before (c :: rest) ([] :: (c :: q) :: qs) where
  text := by simp [ih.text]
  replaced new := by simp [replaceWordFrom, h, ih.replaced]

end IsCut

/-- The characters of the last match are passed over. -/
theorem replaceWordFrom_append (p new : List Char) (xs rest : List Char) (before : Option Char) :
    replaceWordFrom p new xs.length before (xs ++ rest) =
      replaceWordFrom p new 0 (xs.getLast?.or before) rest := by
  induction xs generalizing before with
  | nil => rfl
  | cons x xs ih =>
    rw [List.length_cons, List.cons_append, replaceWordFrom, ih, getLast?_cons_or]

theorem IsCut.word {p : List Char} {before : Option Char} {rest q : List Char}
    {qs : List (List Char)} (hp : p ≠ []) (h : wordAt p before (p ++ rest) = true)
    (ih : IsCut p p.getLast? rest (q :: qs)) :
    IsCut p before (p ++ rest) ([] :: q :: qs) where
  text := by rw [List.intercalate_cons_cons, List.nil_append, ih.text]
  replaced new := by
    obtain ⟨c, tail, rfl⟩ := List.exists_cons_of_ne_nil hp
    have hlast : tail.getLast?.or (some c) = (c :: tail).getLast? := by
      rw [← getLast?_cons_or c tail none, Option.or_none]
    rw [List.cons_append] at h ⊢
    rw [replaceWordFrom, if_pos h, List.isEmpty_cons, if_neg Bool.false_ne_true,
      List.length_cons, Nat.add_sub_cancel, replaceWordFrom_append, hlast, ih.replaced,
      List.intercalate_cons_cons, List.nil_append]

/-- The scan cuts every text, and into more than one piece exactly if `p` stands somewhere between
word boundaries. -/
theorem exists_isCut (p : List Char) (before : Option Char) (cs : List Char) :
    ∃ q qs, IsCut p before cs (q :: qs) ∧ (qs ≠ [] ↔ occursWordFrom p before cs = true) := by
  -- A match leaves what follows it to be cut, so the induction is on the length of the text.
  induction hn : cs.length using Nat.strongRecOn generalizing before cs with
  | _ n ih =>
  cases hword : wordAt p before cs with
  | false =>
    cases cs with
    | nil => exact ⟨[], [], .nil hword, by simp [occursWordFrom, hword]⟩
    | cons c rest =>
      obtain ⟨q, qs, hcut, hcount⟩ := ih rest.length (by simp [← hn]) (some c) rest rfl
      exact ⟨c :: q, qs, hcut.keep hword, by simpa [occursWordFrom, hword] using hcount⟩
  | true =>
    have hfound : occursWordFrom p before cs = true := by
      cases cs <;> simp [occursWordFrom, hword]
    obtain ⟨rest, rfl, _⟩ := wordAt_iff.1 hword
    by_cases hp : p = []
    · subst hp
      cases rest with
      | nil => exact ⟨[], [[]], .nil_of_wordAt hword, by simpa using hfound⟩
      | cons c rest =>
        obtain ⟨q, qs, hcut, _⟩ := ih rest.length (by simp [← hn]) (some c) rest rfl
        exact ⟨[], (c :: q) :: qs, hcut.empty hword, by simpa using hfound⟩
    · have hshorter : rest.length < n := by
        have hpos := List.length_pos_iff.2 hp
        rw [List.length_append] at hn
        omega
      obtain ⟨q, qs, hcut, _⟩ := ih rest.length hshorter p.getLast? rest rfl
      exact ⟨[], q :: qs, hcut.word hp hword, by simp [hfound]⟩

end Text
end SemanticLayer
