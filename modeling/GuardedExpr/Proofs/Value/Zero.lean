import GuardedExpr.Value.Arithmetic
import Mathlib

/-!
# The two zeros

A number equals zero if its bits are all off, but perhaps the one of the sign. So there are
two such numbers, and one of them is the only divisor that a division refuses.
-/

namespace GuardedExpr

theorem beq_zero_iff {x : Float} : (x == 0.0) = true ↔ x = 0.0 ∨ x = -0.0 := by
  have zero : (0.0 : Float) = 0 := Float.toBits_inj.1 (by decide +kernel)
  constructor
  · intro h
    rw [zero] at h ⊢
    obtain ⟨-, -, same | ⟨same, -⟩ | ⟨same, -⟩⟩ := Float.beq_iff_ne_nan_and_eq.1 h
    · exact .inl same
    · exact .inl same
    · exact .inr same
  · rintro (rfl | rfl) <;> decide +kernel

namespace Value

variable {v : Value}

theorem isNumberZero_iff : v.isNumberZero = true ↔ v = .number 0.0 ∨ v = .number (-0.0) := by
  cases v with
  | number x => rw [isNumberZero, beq_zero_iff, Value.number.injEq, Value.number.injEq]
  | _ => simp [isNumberZero]

/-- Zero is not void: a division looks into it. -/
theorem isVoid_of_isNumberZero (h : v.isNumberZero = true) : v.isVoid = false := by
  rcases isNumberZero_iff.1 h with rfl | rfl <;> decide +kernel

/-- A division fails only for a divisor that is zero. -/
theorem div_eq_error_iff {a b : Value} {fault : Fault} :
    a.div b = .error fault ↔ b.isNumberZero = true ∧ fault = .eval .divisionByZero := by
  rw [div]
  split
  case isTrue zero =>
    rw [Except.error.injEq]
    exact ⟨fun same => ⟨zero, same.symm⟩, fun h => h.2.symm⟩
  case isFalse other => exact ⟨nofun, fun h => absurd h.1 other⟩

end Value

end GuardedExpr
