import Mathlib.Data.List.Infix
import SemanticLayer.Proofs.Names

/-!
# SemanticLayer.Proofs.SafeKeys

When a safe key tells which member it stands for.

A safe key is read back by `dottedKey`, which takes pairs of underscores for dots from the left.
This gives the member again exactly if none of its own underscores stands right before an underscore
or a dot (`dottedKey_safeKey_iff`). Members with lone underscores are of that kind, so two of them
with one safe key are one member (`safeKey_collision_free`).
-/

namespace SemanticLayer

/-! ## Reading pairs -/

namespace Text

theorem pair_infix_cons_cons {a b x y : Char} {rest : List Char} :
    [a, b] <:+: x :: y :: rest ↔ (a = x ∧ b = y) ∨ [a, b] <:+: y :: rest := by
  rw [List.infix_cons_iff]
  simp

/-- A `c` of the text that comes before another one or before a `d` is read as half of a pair. -/
theorem collapse_expand_pair {c d y : Char} (hne : c ≠ d) (hy : y = c ∨ y = d) (rest : List Char) :
    ∃ tail, collapse c d (expand d [c, c] (c :: y :: rest)) = d :: tail := by
  rcases hy with rfl | rfl <;> simp [expand, collapse, hne]

/-- Reading every pair `cc` as a `d` undoes writing every `d` as a pair, exactly if no `c` of the
text comes before another one or before a `d`. -/
theorem collapse_expand_iff {c d : Char} (hne : c ≠ d) (xs : List Char) :
    collapse c d (expand d [c, c] xs) = xs ↔ ¬ [c, c] <:+: xs ∧ ¬ [c, d] <:+: xs := by
  induction xs with
  | nil => simp [expand, collapse]
  | cons x rest ih =>
    by_cases hd : x = d
    · subst hd
      simp [expand, collapse, List.infix_cons_iff, hne, ih]
    by_cases hc : x = c
    · subst hc
      cases rest with
      | nil => simp [expand, collapse, hne, List.infix_cons_iff]
      | cons y rest =>
        by_cases hy : y = x ∨ y = d
        · refine iff_of_false (fun h => ?_) (fun h => ?_)
          · obtain ⟨tail, htail⟩ := collapse_expand_pair hne hy rest
            rw [htail] at h
            exact hne (List.cons.inj h).1.symm
          · rcases hy with rfl | rfl
            · exact h.1 (pair_infix_cons_cons.2 (.inl ⟨rfl, rfl⟩))
            · exact h.2 (pair_infix_cons_cons.2 (.inl ⟨rfl, rfl⟩))
        · obtain ⟨hyx, hyd⟩ := not_or.1 hy
          rw [pair_infix_cons_cons, pair_infix_cons_cons]
          simp [expand, collapse, hne, hyx, hyd, Ne.symm hyx, Ne.symm hyd, ← ih]
    · simp [expand, hd, collapse_cons_of_ne hc, List.infix_cons_iff, Ne.symm hc, ih]

end Text

/-! ## Members -/

namespace Member

theorem dottedKey_safeKey_iff (member : String) :
    dottedKey (safeKey member) = member ↔
      ¬ ['_', '_'] <:+: member.toList ∧ ¬ ['_', '.'] <:+: member.toList := by
  rw [← Text.collapse_expand_iff (by decide), dottedKey, toList_safeKey, ← String.toList_inj,
    String.toList_ofList]

/-- No underscore of the member is next to another one or to a dot. -/
structure LoneUnderscores (member : String) : Prop where
  noPair : ¬ ['_', '_'] <:+: member.toList
  notBeforeDot : ¬ ['_', '.'] <:+: member.toList
  notAfterDot : ¬ ['.', '_'] <:+: member.toList

/-- The reading goes from the left, so that an underscore after a dot does no harm to it. -/
theorem LoneUnderscores.dottedKey_safeKey {member : String} (h : LoneUnderscores member) :
    dottedKey (safeKey member) = member :=
  (dottedKey_safeKey_iff member).2 ⟨h.noPair, h.notBeforeDot⟩

/-- Members with lone underscores have safe keys of their own, and a safe key is its own safe
key. -/
theorem safeKey_collision_free :
    (∀ a b : String, LoneUnderscores a → LoneUnderscores b → safeKey a = safeKey b → a = b) ∧
      ∀ member : String, safeKey (safeKey member) = safeKey member := by
  refine ⟨fun a b ha hb hkey => ?_, safeKey_safeKey⟩
  calc
    a = dottedKey (safeKey a) := ha.dottedKey_safeKey.symm
    _ = dottedKey (safeKey b) := by rw [hkey]
    _ = b := hb.dottedKey_safeKey

/-- A member with a lone underscore and two dots in a row is found again from its safe key. -/
theorem line_items_safeKey_collision_free :
    LoneUnderscores "shop.line_items..unit" ∧
      LoneUnderscores (dottedKey "shop__line_items____unit") ∧
      safeKey "shop.line_items..unit" = safeKey (dottedKey "shop__line_items____unit") ∧
      "shop.line_items..unit" = dottedKey "shop__line_items____unit" ∧
      safeKey (safeKey "shop.line_items..unit") = safeKey "shop.line_items..unit" := by
  have hmember : LoneUnderscores "shop.line_items..unit" :=
    ⟨by decide, by decide, by decide⟩
  have hread : LoneUnderscores (dottedKey "shop__line_items____unit") :=
    ⟨by decide, by decide, by decide⟩
  have hkey : safeKey "shop.line_items..unit" = safeKey (dottedKey "shop__line_items____unit") := by
    decide
  exact ⟨hmember, hread, hkey, safeKey_collision_free.1 _ _ hmember hread hkey,
    safeKey_collision_free.2 _⟩

-- An underscore next to a dot is enough for a collision.
example : safeKey "a_.b" = safeKey "a._b" := by decide

end Member
end SemanticLayer
