import SemanticLayer.Proofs.Numerals
import SemanticLayer.Proofs.Text
import SemanticLayer.Statement.Predicate

/-!
# SemanticLayer.Proofs.Literals

The values in the text of a predicate.

`literals` reads a text as SQL does and lists its string literals. It knows nothing of how the text
was made. The text of a predicate is that of a `Template`, plain SQL with places for values
(`Predicate.render_eq_template`), and in such a text a value in quotes is read back, whatever quotes
it holds, while nothing else is taken for a literal (`Template.literals_render`).

* `literals_of_rendered`: the literals of a predicate are the values that its operator uses.
* `bare_values_iff`: which values stand in it without quotes, and when all of these are numbers.
-/

namespace SemanticLayer

/-! ## Reading literals -/

/-- The literals of a text, read from left to right. Inside of a literal its text so far is kept,
the last character in front. -/
def literalsFrom : Option (List Char) → List Char → Option (List String)
  | none, [] => some []
  | none, c :: rest => if c = '\'' then literalsFrom (some []) rest else literalsFrom none rest
  | some _, [] => none
  | some seen, '\'' :: '\'' :: rest => literalsFrom (some ('\'' :: seen)) rest
  | some seen, '\'' :: rest =>
    (literalsFrom none rest).map fun later => String.ofList seen.reverse :: later
  | some seen, c :: rest => literalsFrom (some (c :: seen)) rest

/-- The string literals of an SQL text: each starts at a quote and ends at the next one that is not
followed by another, and two quotes in it stand for one. `none` if the text ends in a literal. -/
def literals (sql : String) : Option (List String) := literalsFrom none sql.toList

theorem literalsFrom_plain {text : List Char} (h : '\'' ∉ text) (rest : List Char) :
    literalsFrom none (text ++ rest) = literalsFrom none rest := by
  induction text with
  | nil => rfl
  | cons c text ih =>
    have hc : c ≠ '\'' := fun he => h (he ▸ List.mem_cons_self)
    have htext : '\'' ∉ text := fun he => h (List.mem_cons_of_mem _ he)
    rw [List.cons_append, literalsFrom, if_neg hc, ih htext]

/-- A literal ends at its own closing quote, unless another quote follows. -/
theorem literalsFrom_inside (value seen : List Char) {rest : List Char}
    (h : rest.head? ≠ some '\'') :
    literalsFrom (some seen) (Text.expand '\'' ['\'', '\''] value ++ '\'' :: rest) =
      (literalsFrom none rest).map fun later =>
        String.ofList (seen.reverse ++ value) :: later := by
  induction value generalizing seen with
  | nil =>
    rw [Text.expand, List.nil_append, List.append_nil, literalsFrom]
    rintro rest' rfl
    exact h rfl
  | cons c value ih =>
    by_cases hc : c = '\''
    · subst hc
      simp [Text.expand, literalsFrom, ih]
    · simp [Text.expand, hc, literalsFrom, ih]

theorem literalsFrom_quoteString (value : String) {rest : List Char}
    (h : rest.head? ≠ some '\'') :
    literalsFrom none ((quoteString value).toList ++ rest) =
      (literalsFrom none rest).map fun later => value :: later := by
  have htext : (quoteString value).toList ++ rest =
      '\'' :: (Text.expand '\'' ['\'', '\''] value.toList ++ '\'' :: rest) := by
    simp [quoteString, Text.quoteWith]
  rw [htext, literalsFrom, if_pos rfl, literalsFrom_inside value.toList [] h]
  simp

/-! ## Templates -/

/-- The text of a literal, if it is written in quotes. -/
def Literal.quoted? : Literal → Option String
  | number _ => none
  | text s => some s

/-- A text with values in it: each of them with the text in front of it, and what follows the last
one. -/
structure Template where
  holes : List (String × Literal)
  rest : String

namespace Template

def values (t : Template) : List Literal := t.holes.map (·.2)

def render (t : Template) : String :=
  t.holes.foldr (fun hole text => hole.1 ++ hole.2.sql ++ text) t.rest

/-- Values with a separator between them. -/
def separated (opening separator : String) (values : List Literal) (closing : String) : Template :=
  match values with
  | [] => ⟨[], opening ++ closing⟩
  | first :: later => ⟨(opening, first) :: later.map (separator, ·), closing⟩

/-- The only quotes of the text are those around its values. -/
structure Plain (t : Template) : Prop where
  before : ∀ hole ∈ t.holes, hole.1 ≠ "" ∧ '\'' ∉ hole.1.toList
  numbers : ∀ n, .number n ∈ t.values → '\'' ∉ n.toList
  after : '\'' ∉ t.rest.toList

theorem render_cons (hole : String × Literal) (holes : List (String × Literal)) (rest : String) :
    render ⟨hole :: holes, rest⟩ = hole.1 ++ hole.2.sql ++ render ⟨holes, rest⟩ := rfl

theorem Plain.tail {hole : String × Literal} {holes : List (String × Literal)} {rest : String}
    (h : Plain ⟨hole :: holes, rest⟩) : Plain ⟨holes, rest⟩ where
  before other hmem := h.before other (List.mem_cons_of_mem _ hmem)
  numbers n hmem := h.numbers n (List.mem_cons_of_mem _ hmem)
  after := h.after

/-- Plain text stands in front of a value, so no value is followed by a quote. -/
theorem Plain.head_ne {t : Template} (h : t.Plain) : t.render.toList.head? ≠ some '\'' := by
  obtain ⟨holes, rest⟩ := t
  cases holes with
  | nil => exact fun hhead => h.after (List.mem_of_head? hhead)
  | cons hole holes =>
    obtain ⟨hne, hbefore⟩ := h.before hole List.mem_cons_self
    rw [render_cons, String.append_assoc, String.toList_append]
    cases hchars : hole.1.toList with
    | nil => exact absurd (String.toList_eq_nil_iff.1 hchars) hne
    | cons c chars =>
      rw [hchars] at hbefore
      exact fun hhead => hbefore (Option.some.inj hhead ▸ List.mem_cons_self)

/-- The literals of the text are the values in quotes. -/
theorem literals_render {t : Template} (h : t.Plain) :
    literals t.render = some (t.values.filterMap Literal.quoted?) := by
  obtain ⟨holes, rest⟩ := t
  induction holes with
  | nil =>
    have hrest := literalsFrom_plain h.after []
    rw [List.append_nil] at hrest
    exact hrest
  | cons hole holes ih =>
    obtain ⟨before, value⟩ := hole
    have hlater := ih h.tail
    rw [literals] at hlater
    rw [literals, render_cons, String.append_assoc, String.toList_append, String.toList_append,
      literalsFrom_plain (h.before _ List.mem_cons_self).2]
    cases value with
    | number n =>
      rw [Literal.sql, literalsFrom_plain (h.numbers n List.mem_cons_self), hlater]
      rfl
    | text s =>
      rw [Literal.sql, literalsFrom_quoteString s h.tail.head_ne, hlater]
      rfl

theorem values_separated (opening separator : String) (values : List Literal) (closing : String) :
    (separated opening separator values closing).values = values := by
  cases values with
  | nil => rfl
  | cons first later => simp [separated, Template.values, Function.comp_def]

theorem render_separated (opening separator : String) (values : List Literal) (closing : String) :
    (separated opening separator values closing).render =
      opening ++ separator.intercalate (values.map (·.sql)) ++ closing := by
  cases values with
  | nil => simp [separated, render]
  | cons first later =>
    rw [separated]
    induction later generalizing opening first with
    | nil => simp [render, String.intercalate_singleton, String.append_assoc]
    | cons second later ih =>
      have hlater := ih separator second
      rw [List.map_cons, render_cons, hlater]
      simp [String.intercalate_cons_cons, String.append_assoc]

theorem plain_separated {opening separator closing : String} {values : List Literal}
    (hopening : opening ≠ "" ∧ '\'' ∉ opening.toList)
    (hseparator : separator ≠ "" ∧ '\'' ∉ separator.toList) (hclosing : '\'' ∉ closing.toList)
    (hnumbers : ∀ n, .number n ∈ values → '\'' ∉ n.toList) :
    (separated opening separator values closing).Plain := by
  refine ⟨?_, ?_, ?_⟩
  · intro hole hmem
    cases values with
    | nil => cases hmem
    | cons first later =>
      rcases List.mem_cons.1 hmem with rfl | hmem
      · exact hopening
      · obtain ⟨value, _, rfl⟩ := List.mem_map.1 hmem
        exact hseparator
  · rw [values_separated]
    exact hnumbers
  · cases values with
    | nil => simpa [separated] using ⟨hopening.2, hclosing⟩
    | cons first later => exact hclosing

end Template

/-! ## Predicates -/

/-- The values of a test, in the order in which they are written. -/
def Test.values : Test → List Literal
  | present | absent => []
  | compare _ value => [value]
  | among _ values | overlaps _ values => values
  | containing _ parts => parts.map fun part => .text ("%" ++ part ++ "%")
  | between _ low high => [.text low, .text high]

namespace Predicate

/-- The text in front of the part that a value is to contain. -/
def ilike (expr : String) (negated : Bool) : String :=
  expr ++ " " ++ negation negated ++ "ILIKE "

/-- The text of a predicate, with its values apart. -/
def template (p : Predicate) : Template :=
  match p.test with
  | .present => ⟨[], p.expr ++ " IS NOT NULL"⟩
  | .absent => ⟨[], p.expr ++ " IS NULL"⟩
  | .compare comparison value => ⟨[(p.expr ++ " " ++ comparison.sql ++ " ", value)], ""⟩
  | .among negated values =>
    .separated (p.expr ++ " " ++ negation negated ++ "IN (") ", " values ")"
  | .overlaps negated values =>
    .separated (negation negated ++ "list_has_any(" ++ p.expr ++ ", [") ", " values "])"
  | .containing _ [] => ⟨[], "()"⟩
  | .containing negated [part] => ⟨[(ilike p.expr negated, .text ("%" ++ part ++ "%"))], ""⟩
  | .containing negated parts =>
    .separated ("(" ++ ilike p.expr negated)
      ((if negated then " AND " else " OR ") ++ ilike p.expr negated)
      (parts.map fun part => .text ("%" ++ part ++ "%")) ")"
  | .between negated low high =>
    ⟨[(p.expr ++ " " ++ negation negated ++ "BETWEEN ", .text low), (" AND ", .text high)], ""⟩

theorem values_template (p : Predicate) : p.template.values = p.test.values := by
  obtain ⟨expr, test⟩ := p
  cases test with
  | present | absent | compare | between => rfl
  | among | overlaps => exact Template.values_separated _ _ _ _
  | containing negated parts =>
    match parts with
    | [] | [_] => rfl
    | _ :: _ :: _ => exact Template.values_separated _ _ _ _

/-- A text that stands in front of each part belongs to the separator, but for the first one. -/
theorem intercalate_map_append (separator before : String) (first : String)
    (later : List String) :
    separator.intercalate ((first :: later).map (before ++ ·)) =
      before ++ (separator ++ before).intercalate (first :: later) := by
  induction later generalizing first with
  | nil => simp [String.intercalate_singleton]
  | cons second later ih =>
    have hlater := ih second
    rw [List.map_cons] at hlater
    rw [List.map_cons, List.map_cons, String.intercalate_cons_cons, hlater,
      String.intercalate_cons_cons]
    simp [String.append_assoc]

theorem render_eq_template (p : Predicate) : p.render = p.template.render := by
  obtain ⟨expr, test⟩ := p
  cases test with
  | present | absent => rfl
  | compare | between => simp [render, template, Template.render, Literal.sql, String.append_assoc]
  | among | overlaps => simp [render, template, Template.render_separated, literalList]
  | containing negated parts =>
    match parts with
    | [] => cases negated <;> rfl
    | [_] => simp [render, renderPart, template, ilike, Template.render, Literal.sql]
    | first :: second :: later =>
      have hparts : (first :: second :: later).map (renderPart expr negated) =
          ((first :: second :: later).map fun part => quoteString ("%" ++ part ++ "%")).map
            (ilike expr negated ++ ·) := by
        rw [List.map_map]
        rfl
      have hvalues : ((first :: second :: later).map fun part =>
            Literal.text ("%" ++ part ++ "%")).map (·.sql) =
          (first :: second :: later).map fun part => quoteString ("%" ++ part ++ "%") := by
        rw [List.map_map]
        rfl
      calc render ⟨expr, .containing negated (first :: second :: later)⟩
          = "(" ++ (if negated then " AND " else " OR ").intercalate
              ((first :: second :: later).map (renderPart expr negated)) ++ ")" := rfl
        _ = "(" ++ (ilike expr negated ++
              ((if negated then " AND " else " OR ") ++ ilike expr negated).intercalate
                ((first :: second :: later).map fun part =>
                  quoteString ("%" ++ part ++ "%"))) ++ ")" := by
            rw [hparts, List.map_cons, intercalate_map_append]
        _ = (template ⟨expr, .containing negated (first :: second :: later)⟩).render := by
            rw [← hvalues, ← String.append_assoc]
            exact (Template.render_separated _ _ _ _).symm

theorem quote_not_mem_negation (negated : Bool) : '\'' ∉ (negation negated).toList := by
  cases negated <;> decide

theorem quote_not_mem_comparison (comparison : Comparison) :
    '\'' ∉ comparison.sql.toList := by
  cases comparison <;> decide

/-- Where the expression holds no quote, the quotes of a predicate are those around its values. -/
theorem plain_template {p : Predicate} (hexpr : '\'' ∉ p.expr.toList)
    (hnumbers : ∀ n, .number n ∈ p.test.values → '\'' ∉ n.toList) : p.template.Plain := by
  obtain ⟨expr, test⟩ := p
  have hilike (negated : Bool) :
      ilike expr negated ≠ "" ∧ '\'' ∉ (ilike expr negated).toList := by
    simp [ilike, hexpr, quote_not_mem_negation]
  cases test with
  | present | absent => exact ⟨by simp [template], by simp [template, Template.values],
      by simp [template, hexpr]⟩
  | compare comparison value =>
    refine ⟨?_, hnumbers, by simp [template]⟩
    simp [template, hexpr, quote_not_mem_comparison]
  | between negated low high =>
    refine ⟨?_, hnumbers, by simp [template]⟩
    simp [template, hexpr, quote_not_mem_negation]
  | among negated values =>
    apply Template.plain_separated _ (by decide) (by decide) hnumbers
    simp [hexpr, quote_not_mem_negation]
  | overlaps negated values =>
    apply Template.plain_separated _ (by decide) (by decide) hnumbers
    simp [hexpr, quote_not_mem_negation]
  | containing negated parts =>
    match parts with
    | [] => exact ⟨by simp [template], by simp [template, Template.values], by simp [template]⟩
    | [part] =>
      refine ⟨fun hole hmem => ?_, hnumbers, by simp [template]⟩
      rw [List.mem_singleton.1 hmem]
      exact hilike negated
    | _ :: _ :: _ =>
      apply Template.plain_separated _ _ (by decide) hnumbers
      · simp [(hilike negated).2]
      · cases negated <;> simp [(hilike _).2]

end Predicate

/-! ## Values of an operator -/

namespace Operator

/-- The values of a filter that its operator uses. -/
def used (operator : Operator) (values : List String) : List String :=
  match operator with
  | isSet | notSet => []
  | gt | gte | lt | lte => values.take 1
  | equals | notEquals | isIn | notIn | contains | notContains | inDateRange | notInDateRange =>
    values

/-- The operator takes its values as they are for the type of the field. The others read them as
parts of a text or as dates. -/
def compares : Operator → Bool
  | contains | notContains | inDateRange | notInDateRange => false
  | _ => true

/-- The text that a value becomes in quotes, unless it stands there as a number. -/
def quoted (operator : Operator) (type : MemberType) (value : String) : Option String :=
  match operator with
  | contains | notContains => some ("%" ++ value ++ "%")
  | inDateRange | notInDateRange => some value
  | _ => if type = .number ∧ Text.isNumeral value.toList = true then none else some value

/-- What a value is written as. -/
def literal (operator : Operator) (type : MemberType) (value : String) : Literal :=
  match operator with
  | contains | notContains => .text ("%" ++ value ++ "%")
  | inDateRange | notInDateRange => .text value
  | _ => .ofValue type value

end Operator

theorem MemberType.isNumeric_iff {type : MemberType} : type.isNumeric = true ↔ type = .number := by
  cases type <;> decide

theorem Literal.quoted?_ofValue (type : MemberType) (value : String) :
    (Literal.ofValue type value).quoted? =
      if type = .number ∧ Text.isNumeral value.toList = true then none else some value := by
  simp only [Literal.ofValue, Bool.and_eq_true, MemberType.isNumeric_iff]
  split <;> rfl

theorem Literal.ofValue_eq_number_iff {type : MemberType} {value n : String} :
    Literal.ofValue type value = .number n ↔
      value = n ∧ type = .number ∧ Text.isNumeral value.toList = true := by
  simp only [Literal.ofValue, Bool.and_eq_true, MemberType.isNumeric_iff]
  split
  case isTrue h => simp [h]
  case isFalse h => simp [h]

namespace Operator

theorem quoted?_literal (operator : Operator) (type : MemberType) (value : String) :
    (operator.literal type value).quoted? = operator.quoted type value := by
  cases operator with
  | contains | notContains | inDateRange | notInDateRange => rfl
  | _ => exact Literal.quoted?_ofValue type value

theorem quoted_eq_none_iff {operator : Operator} {type : MemberType} {value : String} :
    operator.quoted type value = none ↔
      operator.compares = true ∧ type = .number ∧ Text.isNumeral value.toList = true := by
  cases operator <;> simp [quoted, compares]

theorem literal_eq_number_iff {operator : Operator} {type : MemberType} {value n : String} :
    operator.literal type value = .number n ↔ value = n ∧ operator.compares = true ∧
      type = .number ∧ Text.isNumeral value.toList = true := by
  cases operator <;> simp [literal, compares, Literal.ofValue_eq_number_iff]

end Operator

namespace Predicate

variable {member : String} {test : Test}

theorem values_of_comparing {comparison : Comparison} {values : List Literal}
    (h : comparing member comparison values = .ok test) : test.values = values.take 1 := by
  cases values with
  | nil => cases h
  | cons value later =>
    cases h
    rfl

theorem values_of_equality {negated : Bool} {values : List Literal}
    (h : equality member negated values = .ok test) : test.values = values := by
  match values, h with
  | [_], h | _ :: _ :: _, h =>
    cases h
    rfl

theorem values_of_membership {negated : Bool} {values : List Literal}
    (h : membership member negated values = .ok test) : test.values = values := by
  cases values with
  | nil => cases h
  | cons value later =>
    cases h
    rfl

theorem values_of_containment {negated : Bool} {values : List String}
    (h : containment member negated values = .ok test) :
    test.values = values.map fun part => .text ("%" ++ part ++ "%") := by
  cases values with
  | nil => cases h
  | cons value later =>
    cases h
    rfl

theorem values_of_dateRange {negated : Bool} {values : List String}
    (h : dateRange member negated values = .ok test) : test.values = values.map .text := by
  match values, h with
  | [_, _], h =>
    cases h
    rfl

/-- The values of a test are those that the operator uses, each written in its own way. -/
theorem values_of_testOf {type : MemberType} {operator : Operator} {values : List String}
    (h : testOf member type operator values = .ok test) :
    test.values = (operator.used values).map (operator.literal type) := by
  cases operator with
  | isSet | notSet =>
    cases h
    rfl
  | gt | gte | lt | lte => exact (values_of_comparing h).trans List.map_take.symm
  | contains | notContains => exact values_of_containment h
  | inDateRange | notInDateRange => exact values_of_dateRange h
  | equals | notEquals =>
    simp only [testOf] at h
    split at h
    · cases h
      rfl
    · exact values_of_equality h
  | isIn | notIn =>
    simp only [testOf] at h
    split at h
    · cases h
      rfl
    · exact values_of_membership h

theorem of_ofFilter {field : Field} {operator : Operator} {values : List String} {p : Predicate}
    (h : ofFilter member field operator values = .ok p) : p.expr = field.sql ∧
      p.test.values = (operator.used values).map (operator.literal field.type) := by
  rw [ofFilter] at h
  split at h
  case h_1 test htest =>
    cases h
    exact ⟨rfl, values_of_testOf htest⟩
  case h_2 => cases h

/-- No value ends its own literal. The text of a predicate ends outside of a literal, and its
literals are the values that the operator uses, but for those that are written as numbers. -/
theorem literals_of_rendered {field : Field} {operator : Operator} {values : List String}
    {p : Predicate} (hfield : '\'' ∉ field.sql.toList)
    (h : ofFilter member field operator values = .ok p) :
    literals p.render = some ((operator.used values).filterMap (operator.quoted field.type)) ∧
      ∀ value, operator.quoted field.type value = none ↔ operator.compares = true ∧
        field.type = .number ∧
          (Text.IsNumber value.toList ∨ Text.IsNumberWord value.toList) := by
  obtain ⟨hexpr, hvalues⟩ := of_ofFilter h
  have hnumbers : ∀ n, .number n ∈ p.test.values → '\'' ∉ n.toList := by
    intro n hn
    rw [hvalues] at hn
    obtain ⟨value, _, hvalue⟩ := List.mem_map.1 hn
    obtain ⟨rfl, _, _, hnumeral⟩ := Operator.literal_eq_number_iff.1 hvalue
    exact Text.quote_not_mem_numeral hnumeral
  have hplain : p.template.Plain := plain_template (hexpr ▸ hfield) hnumbers
  constructor
  · rw [render_eq_template, Template.literals_render hplain, values_template, hvalues,
      List.filterMap_map]
    congr 2
    funext value
    exact Operator.quoted?_literal operator field.type value
  · intro value
    rw [Operator.quoted_eq_none_iff, Text.isNumeral_iff]

def priceField : Field := .dimension { name := "price", sql := "price", type := .number }

/-- A price among a numeral, which stands bare, and two texts with quotes at either end. -/
theorem literals_of_price_among : ∃ p,
    ofFilter "items.price" priceField .isIn ["-1.5e3", "' OR 1=1 --", "''o'clock'"] = .ok p ∧
      p.render = "price IN (-1.5e3, ''' OR 1=1 --', '''''o''clock''')" ∧
      literals p.render = some ["' OR 1=1 --", "''o'clock'"] := by
  have hfield : '\'' ∉ priceField.sql.toList := by decide
  have hvalues : ["-1.5e3", "' OR 1=1 --", "''o'clock'"].map (Literal.ofValue .number) =
      [.number "-1.5e3", .text "' OR 1=1 --", .text "''o'clock'"] := by decide +kernel
  have hfilter :
      ofFilter "items.price" priceField .isIn ["-1.5e3", "' OR 1=1 --", "''o'clock'"] =
        .ok ⟨"price",
          .among false [.number "-1.5e3", .text "' OR 1=1 --", .text "''o'clock'"]⟩ := by
    simp only [ofFilter, testOf, priceField, Field.type, hvalues]
    rfl
  refine ⟨_, hfilter, by decide +kernel, ?_⟩
  rw [(literals_of_rendered hfield hfilter).1]
  decide +kernel

/-- The values that stand in a predicate on a number without quotes are those that are compared and
read as numbers. They are numbers for SQL too, unless one of them is a word for an infinity or for
no number. -/
theorem bare_values_iff {field : Field} {operator : Operator} {values : List String}
    {p : Predicate} (htype : field.type = .number)
    (h : ofFilter member field operator values = .ok p) :
    p.render = p.template.render ∧
      (∀ value, .number value ∈ p.template.values ↔ operator.compares = true ∧
        value ∈ operator.used values ∧
          (Text.IsNumber value.toList ∨ Text.IsNumberWord value.toList)) ∧
      ((∀ value, .number value ∈ p.template.values → Text.IsNumber value.toList) ↔
        ∀ value ∈ operator.used values, operator.compares = true →
          ¬ Text.IsNumberWord value.toList) := by
  have hbare : ∀ value, .number value ∈ p.template.values ↔ operator.compares = true ∧
      value ∈ operator.used values ∧
        (Text.IsNumber value.toList ∨ Text.IsNumberWord value.toList) := by
    intro value
    rw [values_template, (of_ofFilter h).2, List.mem_map]
    simp only [Operator.literal_eq_number_iff, Text.isNumeral_iff]
    constructor
    · rintro ⟨value, hused, rfl, hcompares, -, hnumeral⟩
      exact ⟨hcompares, hused, hnumeral⟩
    · rintro ⟨hcompares, hused, hnumeral⟩
      exact ⟨value, hused, rfl, hcompares, htype, hnumeral⟩
  refine ⟨render_eq_template p, hbare, ?_⟩
  constructor
  · intro hnumbers value hused hcompares hword
    have hnumber := hnumbers value ((hbare value).2 ⟨hcompares, hused, .inr hword⟩)
    exact hnumber.not_isNumberWord hword
  · intro hwords value hmem
    obtain ⟨hcompares, hused, hnumeral⟩ := (hbare value).1 hmem
    exact hnumeral.resolve_right (hwords value hused hcompares)

/-- A comparison with a number and one with no number. -/
theorem bare_values_of_price : ∃ p,
    ofFilter "items.price" priceField .notEquals [".5e-3", "5 OR 1=1"] = .ok p ∧
      p.render = "price NOT IN (.5e-3, '5 OR 1=1')" ∧
      ∀ value, .number value ∈ p.template.values → Text.IsNumber value.toList := by
  have hvalues : [".5e-3", "5 OR 1=1"].map (Literal.ofValue .number) =
      [.number ".5e-3", .text "5 OR 1=1"] := by decide +kernel
  have hfilter :
      ofFilter "items.price" priceField .notEquals [".5e-3", "5 OR 1=1"] =
        .ok ⟨"price", .among true [.number ".5e-3", .text "5 OR 1=1"]⟩ := by
    simp only [ofFilter, testOf, priceField, Field.type, hvalues]
    rfl
  refine ⟨_, hfilter, by decide +kernel, (bare_values_iff rfl hfilter).2.2.2 ?_⟩
  intro value hused _ hword
  rw [Text.isNumberWord_iff] at hword
  simp only [Operator.used, List.mem_cons, List.not_mem_nil, or_false] at hused
  rcases hused with rfl | rfl <;> exact absurd hword (by decide +kernel)

/-- A price that is compared with the name `nan`. -/
theorem price_equals_nan : ∃ p,
    ofFilter "items.price" priceField .equals ["nan"] = .ok p ∧
      p.render = "price = nan" ∧ .number "nan" ∈ p.template.values ∧
      ¬ Text.IsNumber "nan".toList := by
  have hvalues : ["nan"].map (Literal.ofValue .number) = [.number "nan"] := by decide +kernel
  have hfilter : ofFilter "items.price" priceField .equals ["nan"] =
      .ok ⟨"price", .compare .equal (.number "nan")⟩ := by
    simp only [ofFilter, testOf, priceField, Field.type, hvalues]
    rfl
  refine ⟨_, hfilter, by decide +kernel, List.mem_cons_self, ?_⟩
  rw [← Text.isDecimal_iff]
  decide +kernel

end Predicate
end SemanticLayer
