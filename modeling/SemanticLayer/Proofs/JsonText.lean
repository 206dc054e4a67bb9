import SemanticLayer.Json.Printer
import SemanticLayer.Json.Reader

/-!
# SemanticLayer.Proofs.JsonText

Reading a printed document gives the document back. `Plain` says which documents: those whose
strings and keys are spelled and whose numbers are natural ones.

* `readString_escape`: an escaped text in front of its closing quote reads as the text.
* `readNumber_toDigits`: the digits of a number read as the number, when what follows cannot go on
  with it (`Ends`).
* `Plain.readsBack`: a printed document is read off the head of any text that goes on after it, by
  induction on the document. The fuel is bounded by the length of what is printed.
* `Plain.parse_render`: the text of a plain document reads as that document.
-/

namespace SemanticLayer
namespace Json

/-! ## Strings -/

/-- The pieces that a character is read as: itself, or the unit of its escape. -/
inductive Stands : Piece → Char → Prop where
  | char (c : Char) : Stands (.char c) c
  | control (c : Char) (low : c.toNat < 0x20) : Stands (.unit c.toNat) c

theorem spell_cons {p : Piece} {c : Char} (h : Stands p c) (rest : List Piece) :
    spell (p :: rest) = (spell rest).map (c :: ·) := by
  cases h with
  | char => rfl
  | control low =>
    -- far below the surrogates, whatever unit comes next
    have hhigh : isHighSurrogate c.toNat = false := by simp [isHighSurrogate]; omega
    have hlow : isLowSurrogate c.toNat = false := by simp [isLowSurrogate]; omega
    cases rest with
    | nil => simp [spell, hhigh, hlow]
    | cons q rest => cases q <;> simp [spell, hhigh, hlow]

theorem hexValue_hexDigit : ∀ n < 16, hexValue (hexDigit n) = some n := by decide

theorem readUnit_control {c : Char} (h : c.toNat < 0x20) (rest : List Char) :
    readUnit ('0' :: '0' :: hexDigit (c.toNat / 16) :: hexDigit (c.toNat % 16) :: rest) =
      some (c.toNat, rest) := by
  have hzero : hexValue '0' = some 0 := by decide
  have hfirst := hexValue_hexDigit (c.toNat / 16) (by omega)
  have hsecond := hexValue_hexDigit (c.toNat % 16) (by omega)
  simp only [readUnit, hzero, hfirst, hsecond, Option.some.injEq, Prod.mk.injEq, and_true]
  omega

theorem readPieces_escapeChar (c : Char) (fuel : Nat) (rest : List Char) :
    ∃ p, Stands p c ∧ readPieces (fuel + 1) (escapeChar c ++ rest) =
      (readPieces fuel rest).map fun r => (p :: r.1, r.2) := by
  unfold escapeChar
  -- the escapes of two characters
  iterate 7 (split; · subst c; exact ⟨_, .char _, rfl⟩)
  split
  · rename_i low
    refine ⟨_, .control c low, ?_⟩
    simp only [List.cons_append, List.nil_append, readPieces, readUnit_control low]
  · rename_i hquote hslash _ _ _ _ _ high
    refine ⟨_, .char c, ?_⟩
    rw [List.cons_append, List.nil_append, readPieces.eq_7 _ _ _ hquote, if_neg high]
    all_goals intros; contradiction

theorem length_escapeChar_pos (c : Char) : 0 < (escapeChar c).length := by
  unfold escapeChar
  repeat' split
  all_goals exact Nat.zero_lt_succ _

theorem readPieces_escape (cs rest : List Char) (fuel : Nat) (hfuel : (escape cs).length < fuel) :
    ∃ ps, readPieces fuel (escape cs ++ '"' :: rest) = some (ps, rest) ∧ spell ps = some cs := by
  induction cs generalizing fuel with
  | nil =>
    cases fuel with
    | zero => cases hfuel
    | succ fuel => exact ⟨[], rfl, rfl⟩
  | cons c cs ih =>
    have hc := length_escapeChar_pos c
    rw [escape, List.length_append] at hfuel
    cases fuel with
    | zero => cases hfuel
    | succ fuel =>
      obtain ⟨ps, hread, hspell⟩ := ih fuel (by omega)
      obtain ⟨p, hp, hfirst⟩ := readPieces_escapeChar c fuel (escape cs ++ '"' :: rest)
      refine ⟨p :: ps, ?_, by rw [spell_cons hp, hspell, Option.map_some]⟩
      rw [escape, List.append_assoc, hfirst, hread, Option.map_some]

theorem readString_escape (s : String) (rest : List Char) :
    readString (escape s.toList ++ '"' :: rest) = some (some s, rest) := by
  obtain ⟨ps, hread, hspell⟩ := readPieces_escape s.toList rest
    ((escape s.toList ++ '"' :: rest).length + 1) (by simp only [List.length_append]; omega)
  rw [readString, hread, Option.map_some, hspell, Option.map_some, String.ofList_toList]

/-! ## Numbers -/

/-- The text does not go on with a number. -/
def Ends (cs : List Char) : Prop :=
  ∀ c ∈ cs.head?, c.isDigit = false ∧ c ≠ '.' ∧ c ≠ 'e' ∧ c ≠ 'E'

theorem ends_nil : Ends [] := by simp [Ends]

theorem ends_cons {c : Char} (cs : List Char)
    (h : c.isDigit = false ∧ c ≠ '.' ∧ c ≠ 'e' ∧ c ≠ 'E') : Ends (c :: cs) := by
  simpa [Ends] using h

theorem digitsToNat_toDigits (n : Nat) : digitsToNat (Nat.toDigits 10 n) = n := by
  have hstep : pushDigit = fun n c => 10 * n + (c.toNat - '0'.toNat) := by
    funext n c
    rw [pushDigit, Nat.mul_comm]
  rw [digitsToNat, hstep, ← Nat.ofDigitChars_eq_foldl, Nat.ofDigitChars_ten_toDigits]

theorem isDigit_of_mem_digits {n : Nat} {c : Char} (h : c ∈ Nat.toDigits 10 n) :
    c.isDigit = true :=
  Nat.isDigit_of_mem_toDigits (by decide) (by decide) h

theorem toDigits_eq_cons (n : Nat) :
    ∃ c ds, Nat.toDigits 10 n = c :: ds ∧ c.isDigit = true := by
  obtain ⟨c, ds, hd⟩ := List.exists_cons_of_ne_nil (Nat.toDigits_ne_nil (n := n) (b := 10))
  exact ⟨c, ds, hd, isDigit_of_mem_digits (n := n) (by simp [hd])⟩

/-- Only zero itself is written with a leading zero. -/
theorem head_toDigits {n : Nat} (h : (Nat.toDigits 10 n).head? = some '0') : n = 0 := by
  induction n using Nat.strongRecOn with
  | ind n ih =>
    rw [Nat.toDigits_eq_if (by decide)] at h
    split at h
    · rename_i hn
      have : n.digitChar = '0' := by simpa using h
      exact Nat.digitChar_eq_zero.1 this
    · rename_i hn
      obtain ⟨c, ds, hd, -⟩ := toDigits_eq_cons (n / 10)
      have hc : c = '0' := by simpa [hd] using h
      have := ih (n / 10) (by omega) (by rw [hd, hc, List.head?_cons])
      omega

theorem span_digits {ds rest : List Char} (hds : ∀ c ∈ ds, c.isDigit = true) (hrest : Ends rest) :
    (ds ++ rest).takeWhile Char.isDigit = ds ∧ (ds ++ rest).dropWhile Char.isDigit = rest := by
  rw [List.takeWhile_append_of_pos hds, List.dropWhile_append_of_pos hds]
  cases rest with
  | nil => simp
  | cons c cs =>
    have hc : c.isDigit = false := (hrest c rfl).1
    simp [hc]

theorem readWhole_toDigits (n : Nat) {rest : List Char} (hrest : Ends rest) :
    readWhole (Nat.toDigits 10 n ++ rest) = some (Nat.toDigits 10 n, rest) := by
  by_cases hzero : (Nat.toDigits 10 n).head? = some '0'
  · obtain rfl := head_toDigits hzero
    rfl
  · have hne : ∀ cs, Nat.toDigits 10 n ++ rest ≠ '0' :: cs := by
      intro cs h
      obtain ⟨c, ds, hd, -⟩ := toDigits_eq_cons n
      simp_all
    obtain ⟨htake, hdrop⟩ := span_digits (fun _ => isDigit_of_mem_digits (n := n)) hrest
    rw [readWhole.eq_2 _ hne, htake, hdrop, if_neg]
    simp

theorem readFraction_ends {cs : List Char} (h : Ends cs) : readFraction cs = some ([], cs) := by
  cases cs with
  | nil => rfl
  | cons c cs => simp [readFraction, (h c rfl).2.1]

theorem readExponent_ends {cs : List Char} (h : Ends cs) : readExponent cs = some (none, cs) := by
  cases cs with
  | nil => rfl
  | cons c cs => simp [readExponent, (h c rfl).2.2]

theorem readNumber_toDigits (n : Nat) {rest : List Char} (hrest : Ends rest) :
    readNumber (Nat.toDigits 10 n ++ rest) = some (.nat n, rest) := by
  have hsign : ∀ cs, Nat.toDigits 10 n ++ rest ≠ '-' :: cs := by
    intro cs h
    obtain ⟨c, ds, hd, hc⟩ := toDigits_eq_cons n
    rw [hd] at h
    cases h
    simp at hc
  rw [readNumber.eq_2 _ hsign, readUnsigned, readWhole_toDigits n hrest]
  simp only [readFraction_ends hrest, readExponent_ends hrest]
  simp [digitsToNat_toDigits]

/-! ## Documents -/

/-- Strings and keys are spelled, and numbers are natural ones. -/
inductive Plain : Json → Prop where
  | null : Plain .null
  | bool (b : Bool) : Plain (.bool b)
  | nat (n : Nat) : Plain (.nat n)
  | text (s : String) : Plain (.text s)
  | array {items : List Json} (h : ∀ j ∈ items, Plain j) : Plain (.array items)
  | object {fields : List (Option String × Json)} (hkeys : ∀ f ∈ fields, f.1.isSome = true)
      (hvalues : ∀ f ∈ fields, Plain f.2) : Plain (.object fields)

theorem Plain.record {fields : List (String × Json)} (h : ∀ f ∈ fields, Plain f.2) :
    Plain (.record fields) := by
  refine .object (fun f hf => ?_) (fun f hf => ?_) <;> obtain ⟨g, hg, rfl⟩ := List.mem_map.1 hf
  · rfl
  · exact h g hg

theorem skipSpace_cons {c : Char} {cs : List Char} (h : isSpace c = false) :
    skipSpace (c :: cs) = c :: cs := by
  simp [skipSpace, h]

theorem isSpace_of_isDigit {c : Char} (hc : c.isDigit = true) : isSpace c = false := by
  simp only [isSpace, Bool.or_eq_false_iff, decide_eq_false_iff_not]
  refine ⟨⟨⟨?_, ?_⟩, ?_⟩, ?_⟩ <;> rintro rfl <;> simp at hc

/-- A printed document starts with no white space and does not look like the end of an array. -/
theorem Plain.print_eq_cons {j : Json} (h : Plain j) :
    ∃ c cs, print j = c :: cs ∧ isSpace c = false ∧ c ≠ ']' := by
  cases h with
  | null => exact ⟨_, _, rfl, by decide⟩
  | bool b => cases b <;> exact ⟨_, _, rfl, by decide⟩
  | nat n =>
    obtain ⟨c, ds, hd, hc⟩ := toDigits_eq_cons n
    refine ⟨c, ds, hd, isSpace_of_isDigit hc, ?_⟩
    rintro rfl
    simp at hc
  | text s => exact ⟨_, _, rfl, by decide⟩
  | array h => cases ‹List Json› <;> exact ⟨_, _, rfl, by decide⟩
  | object hkeys hvalues =>
    cases ‹List (Option String × Json)› <;> exact ⟨_, _, rfl, by decide⟩

/-- The document is read off the head of a text that starts with it. -/
def ReadsBack (j : Json) : Prop :=
  ∀ fuel rest, (print j).length ≤ fuel → Ends rest →
    readValue fuel (print j ++ rest) = some (j, rest)

theorem readValue_digit {c : Char} (hc : c.isDigit = true) (fuel : Nat) (cs : List Char) :
    readValue (fuel + 1) (c :: cs) = readNumber (c :: cs) := by
  rw [readValue, skipSpace_cons (isSpace_of_isDigit hc)]
  -- no other kind of document starts with a digit
  split <;> simp_all

theorem readsBack_nat (n : Nat) : ReadsBack (.nat n) := by
  intro fuel rest hfuel hrest
  have hnumber := readNumber_toDigits n hrest
  obtain ⟨c, ds, hd, hc⟩ := toDigits_eq_cons n
  rw [print, hd] at hfuel
  cases fuel with
  | zero => cases hfuel
  | succ fuel =>
    rw [hd, List.cons_append] at hnumber
    rw [print, hd, List.cons_append, readValue_digit hc, hnumber]

theorem readsBack_text (s : String) : ReadsBack (.text s) := by
  intro fuel rest hfuel hrest
  cases fuel with
  | zero => cases hfuel
  | succ fuel =>
    have hread := readString_escape s rest
    simp only [text, print, printString, Option.getD_some, List.cons_append, List.append_assoc,
      List.nil_append, readValue, skipSpace_cons (c := '"') (by decide), hread, Option.map_some]

section Sequences

variable {item : Json} {items : List Json} {key : String} {field : Option String × Json}
  {fields : List (Option String × Json)} {fuel : Nat} {rest : List Char}

theorem readItems_comma (hitem : ReadsBack item) (hfuel : (print item).length ≤ fuel) :
    readItems (fuel + 1) (print item ++ ',' :: rest) =
      (readItems fuel rest).map fun r => (item :: r.1, r.2) := by
  have hvalue := hitem fuel (',' :: rest) hfuel (ends_cons _ (by decide))
  simp only [readItems, hvalue, skipSpace_cons (c := ',') (by decide)]

theorem readItems_close (hitem : ReadsBack item) (hfuel : (print item).length ≤ fuel) :
    readItems (fuel + 1) (print item ++ ']' :: rest) = some ([item], rest) := by
  have hvalue := hitem fuel (']' :: rest) hfuel (ends_cons _ (by decide))
  simp only [readItems, hvalue, skipSpace_cons (c := ']') (by decide)]

theorem readItems_print (h : ∀ j ∈ item :: items, ReadsBack j) (fuel : Nat) (rest : List Char)
    (hfuel : (print item).length + (printItems items).length ≤ fuel) :
    readItems fuel (print item ++ (printItems items ++ rest)) = some (item :: items, rest) := by
  induction items generalizing item fuel with
  | nil =>
    cases fuel with
    | zero => cases hfuel
    | succ fuel => exact readItems_close (h item List.mem_cons_self) (Nat.le_of_succ_le_succ hfuel)
  | cons next items ih =>
    have ⟨hitem, hitems⟩ := List.forall_mem_cons.1 h
    simp only [printItems, List.cons_append, List.append_assoc, List.length_cons,
      List.length_append] at hfuel ⊢
    cases fuel with
    | zero => omega
    | succ fuel =>
      rw [readItems_comma hitem (by omega), ih hitems fuel (by omega), Option.map_some]

theorem readFields_comma (hitem : ReadsBack item) (hfuel : (print item).length ≤ fuel) :
    readFields (fuel + 1) (printString (some key) ++ ':' :: (print item ++ ',' :: rest)) =
      (readFields fuel rest).map fun r => ((some key, item) :: r.1, r.2) := by
  have hkey := readString_escape key (':' :: (print item ++ ',' :: rest))
  have hvalue := hitem fuel (',' :: rest) hfuel (ends_cons _ (by decide))
  simp only [printString, Option.getD_some, List.cons_append, List.append_assoc, List.nil_append,
    readFields, skipSpace_cons (c := '"') (by decide), hkey, skipSpace_cons (c := ':') (by decide),
    hvalue, skipSpace_cons (c := ',') (by decide)]

theorem readFields_close (hitem : ReadsBack item) (hfuel : (print item).length ≤ fuel) :
    readFields (fuel + 1) (printString (some key) ++ ':' :: (print item ++ '\x7d' :: rest)) =
      some ([(some key, item)], rest) := by
  have hkey := readString_escape key (':' :: (print item ++ '\x7d' :: rest))
  have hvalue := hitem fuel ('\x7d' :: rest) hfuel (ends_cons _ (by decide))
  simp only [printString, Option.getD_some, List.cons_append, List.append_assoc, List.nil_append,
    readFields, skipSpace_cons (c := '"') (by decide), hkey, skipSpace_cons (c := ':') (by decide),
    hvalue, skipSpace_cons (c := '\x7d') (by decide)]

theorem readFields_print (hkeys : ∀ f ∈ field :: fields, f.1.isSome = true)
    (h : ∀ f ∈ field :: fields, ReadsBack f.2) (fuel : Nat) (rest : List Char)
    (hfuel : (print field.2).length + (printFields fields).length ≤ fuel) :
    readFields fuel (printString field.1 ++ ':' :: (print field.2
      ++ (printFields fields ++ rest))) = some (field :: fields, rest) := by
  induction fields generalizing field fuel with
  | nil =>
    obtain ⟨key, value⟩ := field
    obtain ⟨key, rfl⟩ := Option.isSome_iff_exists.1 (hkeys _ List.mem_cons_self)
    cases fuel with
    | zero => cases hfuel
    | succ fuel => exact readFields_close (h _ List.mem_cons_self) (Nat.le_of_succ_le_succ hfuel)
  | cons next fields ih =>
    obtain ⟨key, value⟩ := field
    obtain ⟨key, rfl⟩ := Option.isSome_iff_exists.1 (hkeys _ List.mem_cons_self)
    have ⟨(hvalue : ReadsBack value), hvalues⟩ := List.forall_mem_cons.1 h
    simp only [printFields, List.cons_append, List.append_assoc, List.length_cons,
      List.length_append] at hfuel ⊢
    cases fuel with
    | zero => omega
    | succ fuel =>
      rw [readFields_comma hvalue (by omega),
        ih (fun f hf => hkeys f (List.mem_cons_of_mem _ hf)) hvalues fuel (by omega),
        Option.map_some]

theorem readsBack_array (h : ∀ j ∈ items, ReadsBack j) (hplain : ∀ j ∈ items, Plain j) :
    ReadsBack (.array items) := by
  intro fuel rest hfuel _
  cases items with
  | nil =>
    cases fuel with
    | zero => cases hfuel
    | succ fuel => rfl
  | cons item items =>
    simp only [print, List.cons_append, List.append_assoc, List.length_cons, List.length_append]
      at hfuel ⊢
    cases fuel with
    | zero => cases hfuel
    | succ fuel =>
      obtain ⟨c, cs, hc, hspace, hclose⟩ := (hplain item List.mem_cons_self).print_eq_cons
      have hitems := readItems_print h fuel rest (by omega)
      rw [hc, List.cons_append] at hitems ⊢
      simp only [readValue, skipSpace_cons (c := '[') (by decide), skipSpace_cons hspace]
      split
      · rename_i hbracket
        exact absurd (List.cons.inj hbracket).1 hclose
      · rw [hitems, Option.map_some]

theorem readsBack_object (hkeys : ∀ f ∈ fields, f.1.isSome = true)
    (h : ∀ f ∈ fields, ReadsBack f.2) : ReadsBack (.object fields) := by
  intro fuel rest hfuel _
  cases fields with
  | nil =>
    cases fuel with
    | zero => cases hfuel
    | succ fuel => rfl
  | cons field fields =>
    simp only [print, List.cons_append, List.append_assoc, List.length_cons, List.length_append]
      at hfuel ⊢
    cases fuel with
    | zero => cases hfuel
    | succ fuel =>
      have hfields := readFields_print hkeys h fuel rest (by omega)
      have hquote : skipSpace (printString field.1 ++ ':' :: (print field.2
          ++ (printFields fields ++ rest))) = printString field.1 ++ ':' :: (print field.2
          ++ (printFields fields ++ rest)) := skipSpace_cons (by decide)
      simp only [readValue, skipSpace_cons (c := '\x7b') (by decide), hquote]
      split
      · rename_i hbrace
        cases hbrace
      · rw [hfields, Option.map_some]

end Sequences

theorem Plain.readsBack {j : Json} (h : Plain j) : ReadsBack j := by
  induction h with
  | null =>
    intro fuel rest hfuel _
    cases fuel with
    | zero => cases hfuel
    | succ fuel => rfl
  | bool b =>
    intro fuel rest hfuel _
    cases fuel with
    | zero => cases b <;> cases hfuel
    | succ fuel => cases b <;> rfl
  | nat n => exact readsBack_nat n
  | text s => exact readsBack_text s
  | array hplain ih => exact readsBack_array ih hplain
  | object hkeys _ ih => exact readsBack_object hkeys ih

/-- Reading the text of a plain document gives the document. -/
theorem Plain.parse_render {j : Json} (h : Plain j) : parse (render j) = some j := by
  have hread := h.readsBack ((print j).length + 1) [] (Nat.le_succ _) ends_nil
  rw [List.append_nil] at hread
  simp only [parse, render, String.toList_ofList, hread]
  rfl

end Json
end SemanticLayer
