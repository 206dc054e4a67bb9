import SemanticLayer.Text.Numeral

/-!
# SemanticLayer.Proofs.Numerals

The texts that are read as a number, as a grammar.

`isDecimal_iff` says that `isDecimal` accepts the numbers of SQL and nothing else, and
`isNumeral_iff` that `isNumeral` also accepts a few words. No text is both
(`IsNumber.not_isNumberWord`).
-/

namespace SemanticLayer
namespace Text

/-! ## The grammar -/

def AllDigits (cs : List Char) : Prop := ∀ c ∈ cs, c.isDigit = true

/-- One sign, or none. -/
inductive IsSign : List Char → Prop where
  | none : IsSign []
  | plus : IsSign ['+']
  | minus : IsSign ['-']

/-- Digits, at least one, with perhaps a point between them or at either end. -/
inductive IsMantissa : List Char → Prop where
  | whole {ds : List Char} : AllDigits ds → ds ≠ [] → IsMantissa ds
  | point {ds es : List Char} : AllDigits ds → AllDigits es → ds ≠ [] ∨ es ≠ [] →
    IsMantissa (ds ++ '.' :: es)

/-- The letter `e`, perhaps a sign, and at least one digit, or nothing at all. -/
inductive IsPower : List Char → Prop where
  | none : IsPower []
  | power {e : Char} {sign ds : List Char} : e = 'e' ∨ e = 'E' → IsSign sign → AllDigits ds →
    ds ≠ [] → IsPower (e :: (sign ++ ds))

/-- A numeric literal of SQL, with its sign. -/
inductive IsNumber : List Char → Prop where
  | number {sign mantissa power : List Char} : IsSign sign → IsMantissa mantissa → IsPower power →
    IsNumber (sign ++ (mantissa ++ power))

/-- The words for values that are no finite number. -/
def numberWords : List (List Char) :=
  [['i', 'n', 'f'], ['i', 'n', 'f', 'i', 'n', 'i', 't', 'y'], ['n', 'a', 'n']]

/-- One of these words in any case, with its sign. SQL takes it for the name of a column. -/
inductive IsNumberWord : List Char → Prop where
  | word {sign letters : List Char} : IsSign sign → letters.map Char.toLower ∈ numberWords →
    IsNumberWord (sign ++ letters)

/-! ## Signs -/

/-- The text does not start with a sign. -/
def Unsigned (cs : List Char) : Prop := ∀ c ∈ cs.head?, c ≠ '+' ∧ c ≠ '-'

theorem exists_sign (cs : List Char) : ∃ sign, IsSign sign ∧ cs = sign ++ dropSign cs := by
  unfold dropSign
  split
  · exact ⟨['+'], .plus, rfl⟩
  · exact ⟨['-'], .minus, rfl⟩
  · exact ⟨[], .none, rfl⟩

theorem dropSign_append {sign cs : List Char} (hsign : IsSign sign) (hcs : Unsigned cs) :
    dropSign (sign ++ cs) = cs := by
  cases hsign with
  | plus => rfl
  | minus => rfl
  | none =>
    rw [List.nil_append]
    unfold dropSign
    split
    · exact absurd rfl (hcs '+' rfl).1
    · exact absurd rfl (hcs '-' rfl).2
    · rfl

/-- A mantissa starts with a digit or with its point. -/
theorem IsMantissa.exists_head {mantissa : List Char} (h : IsMantissa mantissa) :
    ∃ c rest, mantissa = c :: rest ∧ (c.isDigit = true ∨ c = '.') := by
  cases h with
  | whole hds hne =>
    obtain ⟨d, ds, rfl⟩ := List.exists_cons_of_ne_nil hne
    exact ⟨d, ds, rfl, .inl (hds d List.mem_cons_self)⟩
  | @point ds es hds _ _ =>
    cases ds with
    | nil => exact ⟨'.', es, rfl, .inr rfl⟩
    | cons d ds => exact ⟨d, ds ++ '.' :: es, rfl, .inl (hds d List.mem_cons_self)⟩

theorem IsMantissa.unsigned {mantissa : List Char} (h : IsMantissa mantissa) (rest : List Char) :
    Unsigned (mantissa ++ rest) := by
  obtain ⟨d, ds, rfl, hd⟩ := h.exists_head
  intro c hc
  cases hc
  constructor
  · rintro rfl
    simp at hd
  · rintro rfl
    simp at hd

/-! ## Numbers -/

theorem isDigits_iff {cs : List Char} : isDigits cs = true ↔ AllDigits cs ∧ cs ≠ [] := by
  simp [isDigits, AllDigits, and_comm]

theorem isExponent_iff {cs : List Char} : isExponent cs = true ↔ IsPower cs := by
  constructor
  · intro h
    cases cs with
    | nil => exact .none
    | cons e rest =>
      rw [isExponent, Bool.and_eq_true, Bool.or_eq_true, beq_iff_eq, beq_iff_eq, isDigits_iff] at h
      obtain ⟨sign, hsign, hrest⟩ := exists_sign rest
      rw [hrest]
      exact .power h.1 hsign h.2.1 h.2.2
  · intro h
    cases h with
    | none => rfl
    | @power e sign ds he hsign hds hne =>
      have hunsigned := (IsMantissa.whole hds hne).unsigned []
      rw [List.append_nil] at hunsigned
      rw [isExponent, dropSign_append hsign hunsigned, isDigits_iff.2 ⟨hds, hne⟩]
      simpa using he

/-- No digit stands at the start of a power, and no point. -/
theorem IsPower.head_ne {power : List Char} (h : IsPower power) :
    ∀ c ∈ power.head?, c.isDigit = false ∧ c ≠ '.' := by
  cases h with
  | none => simp
  | power he =>
    intro c hc
    cases hc
    rcases he with rfl | rfl <;> decide

theorem takeWhile_digits {ds rest : List Char} (hds : AllDigits ds)
    (hrest : ∀ c ∈ rest.head?, c.isDigit = false) :
    (ds ++ rest).takeWhile Char.isDigit = ds ∧ (ds ++ rest).dropWhile Char.isDigit = rest := by
  rw [List.takeWhile_append_of_pos hds, List.dropWhile_append_of_pos hds]
  cases rest with
  | nil => simp
  | cons c rest => simp [hrest c rfl]

theorem allDigits_takeWhile (cs : List Char) : AllDigits (cs.takeWhile Char.isDigit) :=
  List.all_eq_true.1 List.all_takeWhile

theorem isUnsignedDecimal_iff {cs : List Char} :
    isUnsignedDecimal cs = true ↔
      ∃ mantissa power, IsMantissa mantissa ∧ IsPower power ∧ cs = mantissa ++ power := by
  constructor
  · intro h
    have hcs := (List.takeWhile_append_dropWhile (p := Char.isDigit) (l := cs)).symm
    have hwhole := allDigits_takeWhile cs
    unfold isUnsignedDecimal at h
    split at h
    · rename_i rest hdrop
      rw [hdrop, ← List.takeWhile_append_dropWhile (p := Char.isDigit) (l := rest)] at hcs
      simp only [Bool.and_eq_true, Bool.or_eq_true, Bool.not_eq_true', List.isEmpty_eq_false_iff]
        at h
      refine ⟨_, _, .point hwhole (allDigits_takeWhile rest) h.1, isExponent_iff.1 h.2, ?_⟩
      rw [List.append_assoc]
      exact hcs
    · simp only [Bool.and_eq_true, Bool.not_eq_true', List.isEmpty_eq_false_iff] at h
      exact ⟨_, _, .whole hwhole h.1, isExponent_iff.1 h.2, hcs⟩
  · rintro ⟨mantissa, power, hmantissa, hpower, rfl⟩
    have hhead := hpower.head_ne
    cases hmantissa with
    | whole hds hne =>
      obtain ⟨htake, hdrop⟩ := takeWhile_digits hds fun c hc => (hhead c hc).1
      simp only [isUnsignedDecimal, htake, hdrop]
      split
      · exact absurd rfl (hhead '.' rfl).2
      · simp [hne, isExponent_iff.2 hpower]
    | @point ds es hds hes hne =>
      have hcs : ds ++ '.' :: es ++ power = ds ++ '.' :: (es ++ power) := by simp
      have hpoint : ∀ c ∈ ('.' :: (es ++ power)).head?, c.isDigit = false := by
        intro c hc
        cases hc
        rfl
      obtain ⟨htake, hdrop⟩ := takeWhile_digits hds hpoint
      obtain ⟨htake', hdrop'⟩ := takeWhile_digits hes fun c hc => (hhead c hc).1
      simp only [isUnsignedDecimal, hcs, htake, hdrop, htake', hdrop', isExponent_iff.2 hpower]
      simpa using hne

theorem isDecimal_iff {cs : List Char} : isDecimal cs = true ↔ IsNumber cs := by
  rw [isDecimal, isUnsignedDecimal_iff]
  constructor
  · rintro ⟨mantissa, power, hmantissa, hpower, hcs⟩
    obtain ⟨sign, hsign, hsigned⟩ := exists_sign cs
    rw [hsigned, hcs]
    exact .number hsign hmantissa hpower
  · intro h
    cases h with
    | @number sign mantissa power hsign hmantissa hpower =>
      exact ⟨mantissa, power, hmantissa, hpower, dropSign_append hsign (hmantissa.unsigned power)⟩

/-! ## Words -/

/-- None of the words starts with a digit, a sign or a point. -/
theorem exists_letter {letters : List Char} (h : letters.map Char.toLower ∈ numberWords) :
    ∃ c rest, letters = c :: rest ∧ (c.toLower = 'i' ∨ c.toLower = 'n') := by
  cases letters with
  | nil => simp [numberWords] at h
  | cons c rest =>
    refine ⟨c, rest, rfl, ?_⟩
    simp only [numberWords, List.map_cons, List.mem_cons, List.cons.injEq, List.not_mem_nil,
      or_false] at h
    rcases h with h | h | h
    · exact .inl h.1
    · exact .inl h.1
    · exact .inr h.1

theorem unsigned_of_letters {letters : List Char} (h : letters.map Char.toLower ∈ numberWords) :
    Unsigned letters := by
  obtain ⟨c, rest, rfl, hletter⟩ := exists_letter h
  intro d hd
  cases hd
  constructor
  · rintro rfl
    simp at hletter
  · rintro rfl
    simp at hletter

theorem isNumberWord_iff {cs : List Char} :
    IsNumberWord cs ↔ (dropSign cs).map Char.toLower ∈ numberWords := by
  constructor
  · intro h
    cases h with
    | word hsign hletters =>
      rw [dropSign_append hsign (unsigned_of_letters hletters)]
      exact hletters
  · intro h
    obtain ⟨sign, hsign, hcs⟩ := exists_sign cs
    rw [hcs]
    exact .word hsign h

theorem isNumeral_iff {cs : List Char} :
    isNumeral cs = true ↔ IsNumber cs ∨ IsNumberWord cs := by
  have hword : isSpecialNumber cs = true ↔ IsNumberWord cs := by
    rw [isNumberWord_iff]
    simp [isSpecialNumber, numberWords, or_assoc]
  rw [isNumeral, Bool.or_eq_true, isDecimal_iff, hword]

theorem toLower_of_isDigit {c : Char} (h : c.isDigit = true) : c.toLower = c := by
  simp only [Char.isDigit, Bool.and_eq_true, decide_eq_true_eq, UInt32.le_iff_toNat_le] at h
  have h57 : c.val.toNat ≤ 57 := h.2
  apply dif_neg
  rintro ⟨hupper, -⟩
  have h65 : 65 ≤ c.val.toNat := hupper
  omega

theorem IsNumber.not_isNumberWord {cs : List Char} (h : IsNumber cs) : ¬ IsNumberWord cs := by
  intro hword
  cases h with
  | @number sign mantissa power hsign hmantissa _ =>
    rw [isNumberWord_iff, dropSign_append hsign (hmantissa.unsigned power)] at hword
    obtain ⟨c, rest, hletters, hletter⟩ := exists_letter hword
    obtain ⟨d, ds, rfl, hdigit⟩ := hmantissa.exists_head
    cases hletters
    rcases hdigit with hdigit | rfl
    · rw [toLower_of_isDigit hdigit] at hletter
      rcases hletter with rfl | rfl <;> cases hdigit
    · simp at hletter

/-! ## Quotes -/

theorem quote_not_mem_digits {ds : List Char} (h : AllDigits ds) : '\'' ∉ ds := by
  intro hmem
  cases h _ hmem

theorem IsSign.quote_not_mem {sign : List Char} (h : IsSign sign) : '\'' ∉ sign := by
  cases h <;> decide

theorem IsMantissa.quote_not_mem {mantissa : List Char} (h : IsMantissa mantissa) :
    '\'' ∉ mantissa := by
  cases h with
  | whole hds _ => exact quote_not_mem_digits hds
  | point hds hes _ => simp [quote_not_mem_digits hds, quote_not_mem_digits hes]

theorem IsPower.quote_not_mem {power : List Char} (h : IsPower power) : '\'' ∉ power := by
  cases h with
  | none => simp
  | power he hsign hds _ =>
    rcases he with rfl | rfl <;> simp [hsign.quote_not_mem, quote_not_mem_digits hds]

theorem IsNumberWord.quote_not_mem {cs : List Char} (h : IsNumberWord cs) : '\'' ∉ cs := by
  cases h with
  | @word sign letters hsign hletters =>
    intro hmem
    rcases List.mem_append.1 hmem with hmem | hmem
    · exact hsign.quote_not_mem hmem
    · have hlower : '\'' ∈ letters.map Char.toLower := List.mem_map.2 ⟨'\'', hmem, rfl⟩
      have hwords : ∀ word ∈ numberWords, '\'' ∉ word := by decide
      exact hwords _ hletters hlower

theorem quote_not_mem_numeral {cs : List Char} (h : isNumeral cs = true) : '\'' ∉ cs := by
  rcases isNumeral_iff.1 h with h | h
  · cases h with
    | number hsign hmantissa hpower =>
      simp [hsign.quote_not_mem, hmantissa.quote_not_mem, hpower.quote_not_mem]
  · exact h.quote_not_mem

end Text
end SemanticLayer
