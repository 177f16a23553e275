import OperatorDispatch.Types.Logical

/-!
# Types that are built from parameters

A type that is built carries the root and the parameters it was built from.
-/

namespace OperatorDispatch
namespace LogicalType

theorem build_eq_ok {root : TypeRoot} {params : TypeParams} {cause : TypeError}
    {type : LogicalType} (built : build root params cause = .ok type) :
    type.root = root ∧ type.params = params ∧ type.nullable = true := by
  rw [build] at built
  split at built
  · cases built
    exact ⟨rfl, rfl, rfl⟩
  · cases built

theorem decimalParts?_of_decimal {precision scale : UInt8} {type : LogicalType}
    (built : decimal precision scale = .ok type) :
    type.root = .decimal ∧ type.decimalParts? = some (precision, scale) := by
  obtain ⟨rootIs, paramsAre, -⟩ := build_eq_ok built
  exact ⟨rootIs, by rw [decimalParts?, paramsAre]⟩

end LogicalType
end OperatorDispatch
