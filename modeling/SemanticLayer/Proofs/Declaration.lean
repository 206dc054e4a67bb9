import SemanticLayer.Join.Declaration
import SemanticLayer.Proofs.Text

/-!
# SemanticLayer.Proofs.Declaration

Reading a join declaration gives back what was written.

A name is written in quotes, or bare when it has no dot, no leading quote and no white space around
it (`Written`). A side is written with any white space around it (`WrittenAs`). `parseJoin_written`
says that a declaration is read as it was written, and `table_of_parse` which table a side names
when only the table is known. A side that can be read always names one (`table_ne_of_parse`).

The other way round, a text that can be read need not be one that can be written. The column part
of a side only has to start with a quote to be taken for a quoted name: `column_identifier_iff` says
when it is one.
-/

namespace SemanticLayer
namespace Text

/-- The code points of the white space characters. -/
def blankCodes : List Nat :=
  [9, 10, 11, 12, 13, 0x20, 0x85, 0xA0, 0x1680, 0x2000, 0x2001, 0x2002, 0x2003, 0x2004, 0x2005,
    0x2006, 0x2007, 0x2008, 0x2009, 0x200A, 0x2028, 0x2029, 0x202F, 0x205F, 0x3000]

theorem mem_blankCodes {c : Char} (h : isBlank c = true) : c.toNat ∈ blankCodes := by
  simp only [isBlank, Bool.or_eq_true, Bool.and_eq_true, decide_eq_true_eq, beq_iff_eq] at h
  simp only [blankCodes, List.mem_cons, List.not_mem_nil, or_false]
  omega

theorem isBlank_of_isWord {c : Char} (h : isWord c = true) : isBlank c = false := by
  cases hb : isBlank c with
  | false => rfl
  | true =>
    have hcode := mem_blankCodes hb
    simp only [isWord] at h
    generalize c.toNat = n at h hcode
    revert h
    revert n
    decide +kernel

theorem ne_of_isWord {c d : Char} (h : isWord c = true) (hd : isWord d = false) : c ≠ d := by
  rintro rfl
  rw [h] at hd
  cases hd

end Text

namespace JoinSide

/-- A name that can stand in a declaration without quotes. -/
structure Bare (name : List Char) : Prop where
  dot : '.' ∉ name
  quote : name.head? ≠ some '"'
  starts : Text.StartsSolid name
  ends : Text.EndsSolid name

/-- The ways to write a name in a declaration. -/
inductive Written (name : List Char) : List Char → Prop where
  | quoted : Written name (Text.quoteWith '"' name)
  | bare : Bare name → Written name name

/-- The ways to write a side of a declaration: its table and its column, a dot between them, and
white space around. -/
inductive WrittenAs (side : JoinSide) : List Char → Prop where
  | mk {before table column after : List Char} :
    (∀ b ∈ before, Text.isBlank b = true) → Written side.table.toList table →
      Written side.column.toList column → (∀ b ∈ after, Text.isBlank b = true) →
        WrittenAs side (before ++ (table ++ '.' :: column) ++ after)

/-- Both names of the side can be written in a declaration. -/
structure Declarable (side : JoinSide) : Prop where
  table_ne : side.table ≠ ""
  column_ne : side.column ≠ ""
  table_equals : '=' ∉ side.table.toList
  column_equals : '=' ∉ side.column.toList

theorem Bare.of_isWord {name : List Char} (h : ∀ c ∈ name, Text.isWord c = true) : Bare name where
  dot hmem := Text.ne_of_isWord (h _ hmem) (by decide +kernel) rfl
  quote hhead := Text.ne_of_isWord (h _ (List.mem_of_head? hhead)) (by decide +kernel) rfl
  starts c hc := Text.isBlank_of_isWord (h c (List.mem_of_head? hc))
  ends c hc := Text.isBlank_of_isWord (h c (List.mem_of_getLast? hc))

theorem Bare.nil : Bare [] := .of_isWord (by simp)

namespace Written

variable {name text : List Char}

theorem solid (h : Written name text) : Text.StartsSolid text ∧ Text.EndsSolid text := by
  cases h with
  | quoted => exact ⟨Text.startsSolid_quoteWith name, Text.endsSolid_quoteWith name⟩
  | bare hb => exact ⟨hb.starts, hb.ends⟩

theorem startsSolid_append (h : Written name text) (rest : List Char) :
    Text.StartsSolid (text ++ '.' :: rest) := by
  cases text with
  | nil =>
    intro c hc
    cases hc
    rfl
  | cons c cs => exact h.solid.1

theorem endsSolid_append (h : Written name text) (first : List Char) :
    Text.EndsSolid (first ++ '.' :: text) := by
  intro c hc
  rw [List.getLast?_append, List.getLast?_cons] at hc
  cases hlast : text.getLast? with
  | none =>
    rw [hlast] at hc
    cases hc
    rfl
  | some d =>
    rw [hlast] at hc
    cases hc
    exact h.solid.2 _ hlast

theorem not_mem {c : Char} (h : Written name text) (hname : c ∉ name) (hquote : c ≠ '"') :
    c ∉ text := by
  cases h with
  | quoted =>
    intro hmem
    rcases Text.mem_quoteWith hmem with hmem | hmem
    · exact hquote hmem
    · exact hname hmem
  | bare _ => exact hname

end Written

/-! ## Reading a side -/

theorem readColumn_eq_some_iff {cs column : List Char} :
    readColumn cs = some column ↔
      (cs.head? = some '"' ∨ '.' ∉ cs) ∧ column = Text.unquote cs := by
  by_cases hquote : cs.head? = some '"'
  · simp [readColumn, hquote, eq_comm]
  · by_cases hdot : '.' ∈ cs
    · simp [readColumn, hquote, hdot]
    · simp [readColumn, hdot, eq_comm]

theorem readColumn_written {name text : List Char} (h : Written name text) :
    readColumn text = some name := by
  rw [readColumn_eq_some_iff]
  cases h with
  | quoted => exact ⟨.inl rfl, (Text.unquote_quoteWith name).symm⟩
  | bare hb =>
    exact ⟨.inr hb.dot, (Text.unquote_of_no_quote hb.quote hb.starts hb.ends).symm⟩

theorem cutTable_written {table text : List Char} (h : Written table text) (rest : List Char) :
    cutTable (text ++ '.' :: rest) = some (table, rest) := by
  cases h with
  | quoted =>
    have hlist : Text.quoteWith '"' table ++ '.' :: rest =
        '"' :: (Text.expand '"' ['"', '"'] table ++ '"' :: '.' :: rest) := by
      simp [Text.quoteWith]
    have hdot : ('.' :: rest).head? ≠ some '"' := by simp
    simp only [hlist, cutTable, Text.closeQuoted_expand table hdot]
  | bare hb =>
    unfold cutTable
    split
    · rename_i tail heq
      cases table with
      | nil => simp at heq
      | cons c cs =>
        have hc : c = '"' := by
          simp only [List.cons_append, List.cons.injEq] at heq
          exact heq.1
        exact absurd (by simp [hc]) hb.quote
    · rw [Text.cutAt_append hb.dot]
      simp [Text.trim_eq_self hb.starts hb.ends]

theorem parse_eq_some_iff {cs : List Char} {side : JoinSide} :
    parse cs = some side ↔ ∃ table rest column, cutTable (Text.trim cs) = some (table, rest) ∧
      readColumn (Text.trim rest) = some column ∧ table ≠ [] ∧ column ≠ [] ∧
      side = ⟨String.ofList table, String.ofList column⟩ := by
  constructor
  · intro h
    rw [parse] at h
    split at h
    · cases h
    · rename_i table rest htable
      split at h
      · cases h
      · rename_i column hcolumn
        split at h
        · cases h
        · rename_i hempty
          cases h
          simp only [Bool.or_eq_true, List.isEmpty_iff, not_or] at hempty
          exact ⟨table, rest, column, htable, hcolumn, hempty.1, hempty.2, rfl⟩
  · rintro ⟨table, rest, column, htable, hcolumn, hne, hne', rfl⟩
    simp [parse, htable, hcolumn, hne, hne']

theorem parse_written {side : JoinSide} {cs : List Char} (h : side.WrittenAs cs)
    (htable : side.table ≠ "") (hcolumn : side.column ≠ "") : parse cs = some side := by
  cases h with
  | @mk _ _ text _ hbefore ht hc hafter =>
    refine parse_eq_some_iff.2 ⟨side.table.toList, text, side.column.toList, ?_, ?_, ?_, ?_, ?_⟩
    · rw [Text.trim_pad hbefore hafter (ht.startsSolid_append _) (hc.endsSolid_append _)]
      exact cutTable_written ht _
    · rw [Text.trim_eq_self hc.solid.1 hc.solid.2]
      exact readColumn_written hc
    · exact fun he => htable (String.toList_eq_nil_iff.1 he)
    · exact fun he => hcolumn (String.toList_eq_nil_iff.1 he)
    · simp

theorem WrittenAs.equals_not_mem {side : JoinSide} {cs : List Char} (h : side.WrittenAs cs)
    (htable : '=' ∉ side.table.toList) (hcolumn : '=' ∉ side.column.toList) : '=' ∉ cs := by
  cases h with
  | mk hbefore ht hc hafter =>
    have hblank : ∀ {ws : List Char}, (∀ b ∈ ws, Text.isBlank b = true) → '=' ∉ ws :=
      fun hws hmem => absurd (hws _ hmem) (by decide)
    simp only [List.mem_append, List.mem_cons, not_or]
    exact ⟨⟨hblank hbefore, ht.not_mem htable (by decide), by decide,
      hc.not_mem hcolumn (by decide)⟩, hblank hafter⟩

/-- Whatever follows it, a bare name before the first dot is the table of a side. -/
theorem table_of_parse {before table rest : List Char} {side : JoinSide}
    (hb : ∀ b ∈ before, Text.isBlank b = true) (ht : Bare table)
    (h : parse (before ++ (table ++ '.' :: rest)) = some side) :
    side.table = String.ofList table := by
  have hdot : Text.isBlank '.' = false := rfl
  obtain ⟨_, _, _, hcut, -, -, -, rfl⟩ := parse_eq_some_iff.1 h
  rw [Text.trim_eq, Text.dropWhile_pad hb ((Written.bare ht).startsSolid_append rest),
    Text.trimEnd_append_cons hdot, cutTable_written (.bare ht)] at hcut
  cases hcut
  rfl

theorem table_ne_of_parse {cs : List Char} {side : JoinSide} (h : parse cs = some side) :
    side.table ≠ "" := by
  obtain ⟨_, _, _, -, -, hne, -, rfl⟩ := parse_eq_some_iff.1 h
  simpa using hne

end JoinSide

/-! ## Reading a declaration -/

theorem parseJoin_eq_some {left right : List Char} {sql : String}
    (hsql : sql.toList = left ++ '=' :: right) {l r : JoinSide}
    (h : parseJoin sql = some (l, r)) :
    JoinSide.parse left = some l ∧ JoinSide.parse right = some r := by
  rw [parseJoin, hsql] at h
  split at h
  · rename_i l' r' hsplit
    obtain ⟨rfl, rfl⟩ := Text.splitAt_append_eq_pair hsplit
    split at h
    · rename_i hl hr
      cases h
      exact ⟨hl, hr⟩
    · cases h
  · cases h

theorem exists_sides_of_parseJoin {sql : String} {l r : JoinSide}
    (h : parseJoin sql = some (l, r)) : ∃ left right, sql.toList = left ++ '=' :: right := by
  have hlength : (Text.splitAt '=' sql.toList).length = 2 := by
    rw [parseJoin] at h
    split at h
    · rename_i hsplit
      rw [hsplit]
      rfl
    · cases h
  rw [Text.length_splitAt] at hlength
  have hmem : '=' ∈ sql.toList := List.count_pos_iff.1 (by omega)
  exact List.append_of_mem hmem

theorem parseJoin_of_sides {left right : List Char} {sql : String}
    (hsql : sql.toList = left ++ '=' :: right) (hleft : '=' ∉ left) (hright : '=' ∉ right)
    {l r : JoinSide} (hl : JoinSide.parse left = some l) (hr : JoinSide.parse right = some r) :
    parseJoin sql = some (l, r) := by
  rw [parseJoin, hsql, Text.splitAt_append hleft, Text.splitAt_of_not_mem hright]
  simp [hl, hr]

/-- A declaration is read as it was written, in whichever way each of its names was. -/
theorem parseJoin_written {left right : JoinSide} {l r : List Char} (hleft : left.Declarable)
    (hright : right.Declarable) (hl : left.WrittenAs l) (hr : right.WrittenAs r) :
    parseJoin (String.ofList (l ++ '=' :: r)) = some (left, right) := by
  have hnone : '=' ∉ l := hl.equals_not_mem hleft.table_equals hleft.column_equals
  have hnone' : '=' ∉ r := hr.equals_not_mem hright.table_equals hright.column_equals
  apply parseJoin_of_sides String.toList_ofList hnone hnone'
  · exact JoinSide.parse_written hl hleft.table_ne hleft.column_ne
  · exact JoinSide.parse_written hr hright.table_ne hright.column_ne

/-- Quotes next to the dot and to each other, white space inside quotes and of several kinds around
the sides, and a bare name with a quote in it. -/
theorem quotes_parseJoin_written :
    parseJoin ("\t" ++ quoteIdentifier "sales.\"\"orders\"" ++ "." ++ quoteIdentifier " Payer \"" ++
        " \n=\u2003" ++ "kund\"är" ++ "." ++ quoteIdentifier "\"" ++ "\u00a0") =
      some (⟨"sales.\"\"orders\"", " Payer \""⟩, ⟨"kund\"är", "\""⟩) := by
  have hbare : JoinSide.Bare "kund\"är".toList :=
    ⟨by decide, by decide, by decide, by decide⟩
  have hleft : JoinSide.WrittenAs ⟨"sales.\"\"orders\"", " Payer \""⟩ _ :=
    @JoinSide.WrittenAs.mk _ ['\t'] _ _ [' ', '\n'] (List.all_eq_true.1 rfl) .quoted .quoted
      (List.all_eq_true.1 rfl)
  have hright : JoinSide.WrittenAs ⟨"kund\"är", "\""⟩ _ :=
    @JoinSide.WrittenAs.mk _ ['\u2003'] _ _ ['\u00a0'] (List.all_eq_true.1 rfl) (.bare hbare)
      .quoted (List.all_eq_true.1 rfl)
  exact parseJoin_written ⟨by decide, by decide, by decide, by decide⟩
    ⟨by decide, by decide, by decide, by decide⟩ hleft hright

/-! ## Column parts -/

namespace JoinSide

/-- The column part of a side: the trimmed text after the dot that ends the table. -/
def columnPart (cs : List Char) : Option (List Char) :=
  (cutTable (Text.trim cs)).map fun parts => Text.trim parts.2

/-- The text is one identifier: a name without a dot, or a name in quotes. The first quote after the
opening one that is not doubled is then the last character. -/
def isIdentifier : List Char → Bool
  | '"' :: rest => (Text.closeQuoted rest).any (·.2.isEmpty)
  | cs => !cs.contains '.'

theorem isIdentifier_of_quote {cs : List Char} (h : cs.head? = some '"') :
    isIdentifier cs = true ↔ ∃ name, cs = Text.quoteWith '"' name := by
  obtain ⟨rest, rfl⟩ := List.head?_eq_some_iff.1 h
  rw [isIdentifier, Option.any_eq_true]
  constructor
  · rintro ⟨⟨name, tail⟩, hclose, hempty⟩
    obtain ⟨rfl, -⟩ := Text.closeQuoted_eq_some_iff.1 hclose
    obtain rfl : tail = [] := List.isEmpty_iff.1 hempty
    exact ⟨name, rfl⟩
  · rintro ⟨name, hname⟩
    rw [Text.quoteWith, List.cons_append, List.cons.injEq] at hname
    refine ⟨(name, []), ?_, rfl⟩
    rw [hname.2]
    exact Text.closeQuoted_expand name (by simp)

theorem isIdentifier_of_no_quote {cs : List Char} (h : cs.head? ≠ some '"') :
    isIdentifier cs = true ↔ '.' ∉ cs := by
  unfold isIdentifier
  split
  · exact absurd rfl h
  · simp

/-- A column part is one identifier exactly if the column that it is read as can be written so. -/
theorem isIdentifier_iff_written {part column : List Char} (hs : Text.StartsSolid part)
    (he : Text.EndsSolid part) (h : readColumn part = some column) :
    isIdentifier part = true ↔ Written column part := by
  obtain ⟨hread, rfl⟩ := readColumn_eq_some_iff.1 h
  by_cases hquote : part.head? = some '"'
  · rw [isIdentifier_of_quote hquote]
    constructor
    · rintro ⟨name, rfl⟩
      rw [Text.unquote_quoteWith]
      exact .quoted
    · intro hw
      generalize Text.unquote part = column at hw
      cases hw with
      | quoted => exact ⟨column, rfl⟩
      | bare hb => exact absurd hquote hb.quote
  · have hdot : '.' ∉ part := hread.resolve_left hquote
    rw [isIdentifier_of_no_quote hquote, Text.unquote_of_no_quote hquote hs he]
    exact iff_of_true hdot (.bare ⟨hdot, hquote, hs, he⟩)

/-- The column of a side is what its column part stands for when its quotes are taken away. The part
is one identifier exactly if it is a way to write that column, and starts with a quote if not. -/
def ReadsColumn (side : JoinSide) (text : List Char) : Prop :=
  ∃ part, columnPart text = some part ∧ side.column = String.ofList (Text.unquote part) ∧
    (isIdentifier part = true ↔ Written side.column.toList part) ∧
    (isIdentifier part = false → part.head? = some '"')

theorem readsColumn_of_parse {text : List Char} {side : JoinSide} (h : parse text = some side) :
    side.ReadsColumn text := by
  obtain ⟨table, rest, column, htable, hcolumn, -, -, rfl⟩ := parse_eq_some_iff.1 h
  obtain ⟨hread, hunquote⟩ := readColumn_eq_some_iff.1 hcolumn
  refine ⟨Text.trim rest, by rw [columnPart, htable]; rfl, by rw [hunquote], ?_, ?_⟩
  · rw [String.toList_ofList]
    exact isIdentifier_iff_written (Text.startsSolid_trim rest) (Text.endsSolid_trim rest) hcolumn
  · intro hnot
    refine Classical.byContradiction fun hquote => ?_
    rw [(isIdentifier_of_no_quote hquote).2 (hread.resolve_left hquote)] at hnot
    cases hnot

end JoinSide

/-- Of a declaration that can be read, the column part of either side is one identifier exactly if
it is a way to write the column that was read. -/
theorem column_identifier_iff {sql : String} {left right : JoinSide}
    (h : parseJoin sql = some (left, right)) :
    ∃ l r, sql.toList = l ++ '=' :: r ∧ left.ReadsColumn l ∧ right.ReadsColumn r := by
  obtain ⟨l, r, hsql⟩ := exists_sides_of_parseJoin h
  obtain ⟨hl, hr⟩ := parseJoin_eq_some hsql h
  exact ⟨l, r, hsql, JoinSide.readsColumn_of_parse hl, JoinSide.readsColumn_of_parse hr⟩

theorem payer_column_identifier_iff :
    parseJoin "orders.\"Payer \"\"ID\"\"\" = customers.id" =
        some (⟨"orders", "Payer \"ID\""⟩, ⟨"customers", "id"⟩) ∧
      ∃ l r, "orders.\"Payer \"\"ID\"\"\" = customers.id".toList = l ++ '=' :: r ∧
        JoinSide.ReadsColumn ⟨"orders", "Payer \"ID\""⟩ l ∧
        JoinSide.ReadsColumn ⟨"customers", "id"⟩ r := by
  have h : parseJoin "orders.\"Payer \"\"ID\"\"\" = customers.id" =
      some (⟨"orders", "Payer \"ID\""⟩, ⟨"customers", "id"⟩) := by decide +kernel
  exact ⟨h, column_identifier_iff h⟩

/-- A name of three parts is read as two if the second one is in quotes. -/
theorem quoted_part_hides_third :
    ∃ l r part, "orders.\"meta\".id = customers.id".toList = l ++ '=' :: r ∧
      parseJoin "orders.\"meta\".id = customers.id" =
        some (⟨"orders", "\"meta\".id"⟩, ⟨"customers", "id"⟩) ∧
      JoinSide.columnPart l = some part ∧ JoinSide.isIdentifier part = false :=
  ⟨"orders.\"meta\".id ".toList, " customers.id".toList, "\"meta\".id".toList, by decide,
    by decide +kernel, by decide +kernel, by decide⟩

end SemanticLayer
