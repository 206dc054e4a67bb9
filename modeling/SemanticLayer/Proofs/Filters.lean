import SemanticLayer.Query

/-!
# SemanticLayer.Proofs.Filters

Filters as trees: induction over a filter and all filters in it, and the members that it mentions.
-/

namespace SemanticLayer
namespace Filter

/-- What holds of the groups whose parts it holds of, and of predicates, holds of every filter. -/
theorem induction {motive : Filter → Prop}
    (all : ∀ filters, (∀ f ∈ filters, motive f) → motive (.all filters))
    (any : ∀ filters, (∀ f ∈ filters, motive f) → motive (.any filters))
    (member : ∀ m operator values, motive (.member m operator values)) (f : Filter) : motive f :=
  @Filter.rec motive (fun filters => ∀ f ∈ filters, motive f) all any member
    (by simp) (fun _ _ hf hrest => List.forall_mem_cons.2 ⟨hf, hrest⟩) f

theorem membersList_eq_flatMap (filters : List Filter) :
    membersList filters = filters.flatMap members := by
  induction filters with
  | nil => rfl
  | cons f rest ih => simp [membersList, ih]

/-- The member is that of a predicate somewhere in the filter. -/
inductive Mentions (m : String) : Filter → Prop where
  | member (operator : Operator) (values : List String) : Mentions m (.member m operator values)
  | all {filters : List Filter} {f : Filter} :
    f ∈ filters → Mentions m f → Mentions m (.all filters)
  | any {filters : List Filter} {f : Filter} :
    f ∈ filters → Mentions m f → Mentions m (.any filters)

theorem mem_members {m : String} {f : Filter} : m ∈ f.members ↔ f.Mentions m := by
  constructor
  · induction f using Filter.induction with
    | all filters ih =>
      intro h
      rw [members, membersList_eq_flatMap] at h
      obtain ⟨f, hf, hm⟩ := List.mem_flatMap.1 h
      exact .all hf (ih f hf hm)
    | any filters ih =>
      intro h
      rw [members, membersList_eq_flatMap] at h
      obtain ⟨f, hf, hm⟩ := List.mem_flatMap.1 h
      exact .any hf (ih f hf hm)
    | member m' operator values =>
      intro h
      rw [members, List.mem_singleton] at h
      exact h ▸ .member operator values
  · intro h
    induction h with
    | member operator values => simp [members]
    | all hf _ ih =>
      rw [members, membersList_eq_flatMap]
      exact List.mem_flatMap.2 ⟨_, hf, ih⟩
    | any hf _ ih =>
      rw [members, membersList_eq_flatMap]
      exact List.mem_flatMap.2 ⟨_, hf, ih⟩

end Filter
end SemanticLayer
