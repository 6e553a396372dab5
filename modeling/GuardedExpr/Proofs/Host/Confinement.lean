import GuardedExpr.Proofs.Expr.Keeps
import GuardedExpr.Proofs.Expr.Parts
import GuardedExpr.Proofs.Host.Reach

/-!
# Confinement

An evaluation stays inside its scope. It asks objects of the scope for safe keys and
for nothing else, and each value that comes up on the way has no parts or lies in the
scope. This is shown of the parts of the evaluator one by one and put together by
induction on the expression.
-/

namespace GuardedExpr

/-- Whether a value has no parts. -/
def Value.isAtom (value : Value) : Bool :=
  value.isNullish || value.isScalar

namespace Scope

/-- A value that has no parts or lies in the scope. -/
def MayHold (scope : Scope) (value : Value) : Prop :=
  value.isAtom = true ∨ ∃ level, scope.Reaches level value

variable {scope : Scope}

theorem mayHold_absent : scope.MayHold .absent := .inl rfl

theorem MayHold.getD_absent {found : Option Value}
    (h : ∀ value ∈ found, scope.MayHold value) :
    scope.MayHold (found.getD .absent) := by
  cases found with
  | none => exact mayHold_absent
  | some value => exact h value rfl

theorem MayHold.reaches {value : Value} (h : scope.MayHold value)
    (parted : value.isAtom = false) :
    ∃ level, scope.Reaches level value := by
  rcases h with atom | reached
  · rw [parted] at atom
    cases atom
  · exact reached

theorem MayHold.lookup {entries : Entries Value} (h : scope.MayHold (.map entries))
    (key : String) :
    scope.MayHold ((entries.lookup key).getD .absent) := by
  obtain ⟨level, owner⟩ := h.reaches rfl
  exact .getD_absent fun _ place => .inr ⟨level + 1, .entry owner place⟩

theorem MayHold.element {items : List Value} (h : scope.MayHold (.list items))
    (key : String) :
    scope.MayHold (Value.element items key) := by
  rw [Value.element]
  split
  · obtain ⟨level, owner⟩ := h.reaches rfl
    exact .getD_absent fun _ place => .inr ⟨level + 1, .element owner place⟩
  · split
    · exact .inl rfl
    · exact mayHold_absent

end Scope

end GuardedExpr
