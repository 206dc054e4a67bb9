import SemanticLayer.Proofs.Overrides
import SemanticLayer.Proofs.WordReplacement

/-!
# SemanticLayer.Proofs.OverrideReferences

What an override reads. It is accepted if its SQL holds the dotted name of its field anywhere, but
only where this name is a word of its own is it replaced by the expression of the field.

`SqlOverride.IsCut` describes the replacement, whatever the expression, and
`accepted_override_reads_field_iff` says when anything is replaced at all.
-/

namespace SemanticLayer
namespace SqlOverride

/-- The SQL of the override is `pieces` with its reference between them, and the expression of the
field takes the place of each of these references, whatever it is. -/
structure IsCut (o : SqlOverride) (pieces : List String) : Prop where
  written : o.reference.intercalate pieces = o.overrideSql
  replaced : ∀ sql, o.substitute sql = sql.intercalate pieces

/-- The new expression is the SQL of the override with the current expression in the place of at
least one of its references. -/
def ReadsField (o : SqlOverride) (current new : String) : Prop :=
  ∃ pieces, 2 ≤ pieces.length ∧ o.IsCut pieces ∧ new = current.intercalate pieces

/-- The override refers to its field by a word of its own. -/
def HasReference (o : SqlOverride) : Prop :=
  Text.IsWordIn o.reference.toList o.overrideSql.toList

instance (o : SqlOverride) : Decidable o.HasReference :=
  inferInstanceAs (Decidable (Text.IsWordIn _ _))

theorem isCut_of_text {o : SqlOverride} {pieces : List (List Char)}
    (h : Text.IsCut o.reference.toList none o.overrideSql.toList pieces) :
    o.IsCut (pieces.map String.ofList) := by
  have htexts : (pieces.map String.ofList).map String.toList = pieces := by simp
  constructor
  · apply String.toList_inj.1
    rw [String.toList_intercalate, htexts, h.text]
  · intro sql
    apply String.toList_inj.1
    rw [String.toList_intercalate, htexts, substitute, String.toList_ofList, Text.replaceWord,
      h.replaced]

theorem exists_isCut (o : SqlOverride) :
    ∃ pieces, o.IsCut pieces ∧ (2 ≤ pieces.length ↔ o.HasReference) := by
  obtain ⟨q, qs, hcut, hcount⟩ := Text.exists_isCut o.reference.toList none o.overrideSql.toList
  refine ⟨_, isCut_of_text hcut, ?_⟩
  rw [HasReference, ← Text.occursWord_iff, Text.occursWord, ← hcount, ← List.length_pos_iff,
    List.length_map, List.length_cons]
  omega

/-- All cuts have the same number of references: an expression of one character makes the result
longer by that number than the empty one. -/
theorem IsCut.length_eq {o : SqlOverride} {ps qs : List String} (hp : o.IsCut ps)
    (hq : o.IsCut qs) : ps.length - 1 = qs.length - 1 := by
  have hsame : ∀ sql : String, (sql.toList.intercalate (ps.map String.toList)).length =
      (sql.toList.intercalate (qs.map String.toList)).length := by
    intro sql
    rw [← String.toList_intercalate, ← String.toList_intercalate, ← hp.replaced, hq.replaced]
  have hempty := hsame ""
  have hone := hsame "x"
  simp only [Text.length_intercalate, List.length_map] at hempty hone
  have hzero : "".toList.length = 0 := by decide
  have hsucc : "x".toList.length = 1 := by decide
  rw [hzero] at hempty
  rw [hsucc] at hone
  omega

theorem readsField_iff {o : SqlOverride} {current : String} :
    o.ReadsField current (o.substitute current) ↔ o.HasReference := by
  obtain ⟨qs, hcut, hcount⟩ := o.exists_isCut
  rw [← hcount]
  constructor
  · rintro ⟨ps, hlength, hp, _⟩
    have heq := hp.length_eq hcut
    omega
  · intro hlength
    exact ⟨qs, hlength, hcut, hcut.replaced current⟩

theorem sql_onField {o : SqlOverride} {f : Field} (h : f.name = o.fieldName) :
    (o.onField f).sql = o.substitute f.sql := by
  cases f with
  | dimension d =>
    have hd : d.name = o.fieldName := h
    rw [onField, onDimension, if_pos hd]
    rfl
  | measure m =>
    have hm : m.name = o.fieldName := h
    rw [onField, onMeasure, if_pos hm]
    rfl

end SqlOverride

theorem applyOverrides_append_ok {s t : TableSchema} {earlier later : List SqlOverride} :
    applyOverrides s (earlier ++ later) = .ok t ↔
      ∃ current, applyOverrides s earlier = .ok current ∧ applyOverrides current later = .ok t := by
  rw [applyOverrides, List.foldlM_append, bind_eq_ok]
  rfl

/-- An accepted override holds the text of its reference. What it gives to a field of its name reads
the expression that was there before exactly if this text stands in it as a word. -/
theorem accepted_override_reads_field_iff {s t : TableSchema} {earlier later : List SqlOverride}
    {o : SqlOverride} (h : applyOverrides s (earlier ++ o :: later) = .ok t) :
    o.reference.toList <:+: o.overrideSql.toList ∧
    ∃ current next, applyOverrides s earlier = .ok current ∧ o.apply current = .ok next ∧
      applyOverrides next later = .ok t ∧
      ∀ (i : Nat) (f : Field), current.fields[i]? = some f → f.name = o.fieldName →
        ∃ g : Field, next.fields[i]? = some g ∧ g.name = f.name ∧
          (o.ReadsField f.sql g.sql ↔ o.HasReference) := by
  obtain ⟨current, hearlier, h⟩ := applyOverrides_append_ok.1 h
  obtain ⟨next, hnext, hlater⟩ := applyOverrides_cons_ok.1 h
  refine ⟨Text.occurs_iff_infix.1 (SqlOverride.isValid_of_apply hnext), current, next, hearlier,
    hnext, hlater, ?_⟩
  intro i f hf hname
  refine ⟨o.onField f, ?_, o.name_onField f, ?_⟩
  · rw [SqlOverride.fields_apply hnext, List.getElem?_map, hf, Option.map_some]
  · rw [SqlOverride.sql_onField hname]
    exact SqlOverride.readsField_iff

/-- The second override of the priority puts what the first one wrote in the place of its
reference. -/
theorem text_override_reads_highest :
    ∃ t current next f g,
      applyOverrides issuesBase [highestOverride, textOverride, countOverride] = .ok t ∧
      applyOverrides issuesBase [highestOverride] = .ok current ∧
      textOverride.apply current = .ok next ∧
      current.fields[0]? = some f ∧ next.fields[0]? = some g ∧
      f.sql = "greatest(__base_query.\"Priority\", issues.priority_tags[1])" ∧
      textOverride.ReadsField f.sql g.sql := by
  obtain ⟨t, ht⟩ : ∃ t, applyOverrides issuesBase [highestOverride, textOverride, countOverride] =
      .ok t := exists_applyOverrides_iff.2 (by decide +kernel)
  obtain ⟨_, current, next, hcurrent, hnext, _, hreads⟩ := accepted_override_reads_field_iff
    (show applyOverrides issuesBase ([highestOverride] ++ textOverride :: [countOverride]) = .ok t
      from ht)
  have hfirst : (applyOverrides issuesBase [highestOverride]).toOption.bind (fun c =>
      c.fields[0]?.map fun f => (f.name, f.sql)) = some ("issues__priority",
        "greatest(__base_query.\"Priority\", issues.priority_tags[1])") := by decide +kernel
  rw [hcurrent] at hfirst
  obtain ⟨f, hf, hfield⟩ := Option.map_eq_some_iff.1 hfirst
  obtain ⟨hname, hsql⟩ := Prod.mk.inj hfield
  obtain ⟨g, hg, _, hiff⟩ := hreads 0 f hf hname
  exact ⟨t, current, next, f, g, ht, hcurrent, hnext, hf, hg, hsql, hiff.2 (by decide +kernel)⟩

def firstTagOverride : SqlOverride where
  fieldName := "issues__priority"
  overrideSql := "issues.priority_tags[1]"
  type := .number

/-- A longer name that begins like the reference is enough for an override to be accepted, and is
left as it is. -/
theorem longer_name_is_not_rewritten :
    ∃ t, applyOverrides issuesBase [firstTagOverride] = .ok t ∧
      (t.dimension? "issues__priority").map (·.sql) = some "issues.priority_tags[1]" ∧
      ¬ firstTagOverride.ReadsField "__base_query.\"Priority\"" "issues.priority_tags[1]" := by
  obtain ⟨t, ht⟩ : ∃ t, applyOverrides issuesBase [firstTagOverride] = .ok t :=
    exists_applyOverrides_iff.2 (by decide +kernel)
  have hsql : ((applyOverrides issuesBase [firstTagOverride]).toOption.bind
      (·.dimension? "issues__priority")).map (·.sql) = some "issues.priority_tags[1]" := by
    decide +kernel
  rw [ht] at hsql
  have hsame : firstTagOverride.substitute "__base_query.\"Priority\"" =
      "issues.priority_tags[1]" := by decide +kernel
  refine ⟨t, ht, hsql, ?_⟩
  rw [← hsame, SqlOverride.readsField_iff]
  decide +kernel

end SemanticLayer
