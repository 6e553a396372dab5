import GuardedExpr.Expr.Eval
import GuardedExpr.Proofs.Value.Equality
import Mathlib

/-!
# Comparing from both sides

From the other side two values have the opposite order, and none still if they had none. So
an operator that orders its operands says what its converse says of them in turn. Loose
equality does not depend on the side either, and holds wherever strict equality does.
-/

namespace GuardedExpr

open Float.Model (UnpackedFloat)

/-! ## The order of two doubles -/

theorem unpackedCompare_swap (u v : UnpackedFloat) :
    v.compare u = (u.compare v).map Ordering.swap := by
  cases u with
  | notANumber => cases v <;> rfl
  | zero s =>
    cases v with
    | finite s' _ _ _ => cases s' <;> rfl
    | infinity s' => cases s' <;> rfl
    | _ => rfl
  | infinity s =>
    cases v with
    | infinity s' => cases s <;> cases s' <;> rfl
    | _ => cases s <;> rfl
  | finite s m e _ =>
    cases v with
    | finite s' m' e' _ =>
      have mantissa : compare m' m = (compare m m').swap := Std.OrientedCmp.eq_swap
      have exponent : compare e' e = (compare e e').swap := Std.OrientedCmp.eq_swap
      cases s <;> cases s' <;>
        simp only [UnpackedFloat.compare, mantissa, exponent, Ordering.swap_then,
          Ordering.swap_swap, Option.map_some, Ordering.swap_lt, Ordering.swap_gt]
    | infinity s' => cases s' <;> rfl
    | zero => cases s <;> rfl
    | notANumber => rfl

namespace Value

variable {l r : Value} {x y : Float}

/-- Asking for one order after the other finds the order that the two doubles have. -/
theorem compareNumbers?_eq :
    compareNumbers? x y = x.toModel.unpack.compare y.toModel.unpack := by
  have lt : ∀ a b : Float, a < b ↔ a.toModel.unpack.compare b.toModel.unpack = some .lt :=
    fun a b => decide_eq_true_iff.trans beq_iff_eq
  have eq : (x == y) = true ↔ x.toModel.unpack.compare y.toModel.unpack = some .eq :=
    beq_iff_eq (α := Option Ordering)
  simp only [compareNumbers?, lt, eq, unpackedCompare_swap x.toModel.unpack y.toModel.unpack]
  cases x.toModel.unpack.compare y.toModel.unpack with
  | none => rfl
  | some order => cases order <;> rfl

theorem compareNumbers?_swap :
    compareNumbers? y x = (compareNumbers? x y).map Ordering.swap := by
  rw [compareNumbers?_eq, compareNumbers?_eq, unpackedCompare_swap]

theorem compareTexts_swap (s t : String) : compareTexts t s = (compareTexts s t).swap :=
  compareOfLessAndEq_eq_swap le_antisymm le_total not_le

theorem compare?_swap (l r : Value) : r.compare? l = (l.compare? r).map Ordering.swap := by
  cases l with
  | text s =>
    cases r with
    | text t => exact congrArg some (compareTexts_swap s t)
    | _ => exact compareNumbers?_swap
  | _ => cases r <;> exact compareNumbers?_swap

/-! ## Loose equality -/

theorem strictEq_comm (hl : l.KeysUnique) (hr : r.KeysUnique) :
    l.strictEq r = r.strictEq l :=
  Bool.eq_iff_iff.2 ⟨strictEq_symm hl hr, strictEq_symm hr hl⟩

theorem looseEq_comm (hl : l.KeysUnique) (hr : r.KeysUnique) :
    l.looseEq r = r.looseEq l := by
  have numbers : (l.toNumber == r.toNumber) = (r.toNumber == l.toNumber) := BEq.comm
  rw [looseEq, looseEq, numbers, strictEq_comm hl hr, Bool.or_comm,
    Bool.and_comm l.isNullish, Bool.and_comm l.isScalar, Bool.and_comm l.isText]

/-- What is strictly equal is loosely equal. -/
theorem looseEq_of_strictEq (h : l.strictEq r = true) : l.looseEq r = true := by
  cases strictEq_iff_matches.1 h with
  | absent | null => rfl
  | bool b => cases b <;> decide +kernel
  | number same => exact same
  | text | list | map | host => exact h

theorem looseEq_of_isNaN (nan : l.isNaN = true) : l.looseEq r = false := by
  cases l with
  | number x =>
    have never : ∀ y : Float, (x == y) = false := by
      rw [isNaN, Float.isNaN_eq_decide_eq_nan, decide_eq_true_eq] at nan
      exact nan ▸ Float.nan_beq_eq_false
    cases r with
    | bool _ | number _ | text _ => exact never _
    | _ => rfl
  | _ => cases nan

/-- To a void value only the nullish ones are equal, and to NaN not even those. -/
theorem looseEq_of_isVoid (hl : l.KeysUnique) (hr : r.KeysUnique)
    (void : l.isVoid = true ∨ r.isVoid = true) :
    l.looseEq r = (l.isNullish && r.isNullish) := by
  have nanNotNullish : ∀ v : Value, v.isNaN = true → v.isNullish = false := by
    intro v nan
    cases v with
    | number _ => rfl
    | _ => cases nan
  rw [isVoid, isVoid, Bool.or_eq_true, Bool.or_eq_true] at void
  rcases void with (nullish | nan) | (nullish | nan)
  · rw [looseEq, nullish, Bool.true_or, if_pos rfl]
  · rw [looseEq_of_isNaN nan, nanNotNullish l nan, Bool.false_and]
  · rw [looseEq, nullish, Bool.or_true, if_pos rfl]
  · rw [looseEq_comm hl hr, looseEq_of_isNaN nan, nanNotNullish r nan, Bool.and_false]

end Value

namespace BinaryOp

variable {op : BinaryOp} {l r : Value}

def isOrdering (op : BinaryOp) : Bool :=
  [.lt, .le, .gt, .ge].contains op

/-- The operator that says the same from the other side. -/
def converse : BinaryOp → BinaryOp
  | .lt => .gt
  | .le => .ge
  | .gt => .lt
  | .ge => .le
  | op => op

/-- The operation answers that it is so. -/
def Holds (op : BinaryOp) (l r : Value) : Prop :=
  op.apply l r = .ok (.bool true)

/-! ## Operators that order -/

theorem apply_of_isOrdering (h : op.isOrdering = true) :
    op.apply l r = .ok (.bool (!(l.isVoid || r.isVoid) && op.accepts (l.compare? r))) := by
  cases op with
  | lt | le | gt | ge => rfl
  | _ => cases h

theorem accepts_converse (h : op.isOrdering = true) (order : Option Ordering) :
    op.converse.accepts (order.map Ordering.swap) = op.accepts order := by
  cases op with
  | lt | le | gt | ge =>
    cases order with
    | none => rfl
    | some order => cases order <;> rfl
  | _ => cases h

theorem isOrdering_converse (h : op.isOrdering = true) : op.converse.isOrdering = true := by
  cases op with
  | lt | le | gt | ge => rfl
  | _ => cases h

theorem apply_converse (h : op.isOrdering = true) (l r : Value) :
    op.converse.apply r l = op.apply l r := by
  rw [apply_of_isOrdering (isOrdering_converse h), apply_of_isOrdering h,
    Value.compare?_swap l r, accepts_converse h, Bool.or_comm]

theorem apply_of_isVoid (h : op.isOrdering = true)
    (void : l.isVoid = true ∨ r.isVoid = true) :
    op.apply l r = .ok (.bool false) := by
  rw [apply_of_isOrdering h, (Bool.or_eq_true _ _).mpr void, Bool.not_true, Bool.false_and]

theorem holds_iff_of_isOrdering (h : op.isOrdering = true) :
    op.Holds l r ↔ (l.isVoid = false ∧ r.isVoid = false) ∧
      op.accepts (l.compare? r) = true := by
  rw [Holds, apply_of_isOrdering h, Except.ok.injEq, Value.bool.injEq, Bool.and_eq_true,
    Bool.not_eq_true', Bool.or_eq_false_iff]

theorem lt_accepts_iff {order : Option Ordering} :
    lt.accepts order = true ↔ order = some .lt := by
  rcases order with _ | _ | _ | _ <;> decide

theorem gt_accepts_iff {order : Option Ordering} :
    gt.accepts order = true ↔ order = some .gt := by
  rcases order with _ | _ | _ | _ <;> decide

theorem le_accepts_iff {order : Option Ordering} :
    le.accepts order = true ↔ order = some .lt ∨ order = some .eq := by
  rcases order with _ | _ | _ | _ <;> decide

/-! ## Operators that compare -/

theorem holds_eq_iff : BinaryOp.eq.Holds l r ↔ l.looseEq r = true := by
  rw [Holds, apply, Except.ok.injEq, Value.bool.injEq]

theorem holds_ne_iff : BinaryOp.ne.Holds l r ↔ ¬ BinaryOp.eq.Holds l r := by
  rw [holds_eq_iff, Holds, apply, Except.ok.injEq, Value.bool.injEq, Bool.not_eq_true',
    Bool.not_eq_true]

theorem holds_strictEq_iff : BinaryOp.strictEq.Holds l r ↔ l.strictEq r = true := by
  rw [Holds, apply, Except.ok.injEq, Value.bool.injEq]

theorem exists_apply_of_compares (h : op.isEquality = true ∨ op.isOrdering = true) :
    ∃ answer : Bool, op.apply l r = .ok (.bool answer) := by
  rcases h with h | h
  · cases op with
    | eq | ne | strictEq | strictNe => exact ⟨_, rfl⟩
    | _ => cases h
  · exact ⟨_, apply_of_isOrdering h⟩

theorem holds_converse (h : op.isOrdering = true) :
    op.Holds l r ↔ op.converse.Holds r l := by
  rw [Holds, Holds, apply_converse h]

theorem not_lt_and_gt : ¬ (BinaryOp.lt.Holds l r ∧ BinaryOp.gt.Holds l r) := by
  rintro ⟨below, above⟩
  have less := lt_accepts_iff.1 ((holds_iff_of_isOrdering rfl).1 below).2
  have more := gt_accepts_iff.1 ((holds_iff_of_isOrdering rfl).1 above).2
  cases less.symm.trans more

theorem holds_le_iff :
    BinaryOp.le.Holds l r ↔ BinaryOp.lt.Holds l r ∨
      l.compare? r = some .eq ∧ l.isVoid = false ∧ r.isVoid = false := by
  rw [holds_iff_of_isOrdering rfl, holds_iff_of_isOrdering rfl, le_accepts_iff,
    lt_accepts_iff, and_or_left, and_comm (a := l.compare? r = some .eq)]

/-- The comparisons of two values always have an answer, and the answers fit together: the
equalities do not depend on the side, an order from one side is the opposite order from the
other, and a void operand leaves no order. -/
theorem comparisons_consistent (hl : l.KeysUnique) (hr : r.KeysUnique) :
    (∀ op : BinaryOp, op.isEquality = true ∨ op.isOrdering = true →
      ∃ answer : Bool, op.apply l r = .ok (.bool answer)) ∧
    (BinaryOp.eq.Holds l r ↔ BinaryOp.eq.Holds r l) ∧
    (BinaryOp.ne.Holds l r ↔ ¬ BinaryOp.eq.Holds l r) ∧
    (BinaryOp.strictEq.Holds l r → BinaryOp.eq.Holds l r) ∧
    (BinaryOp.lt.Holds l r ↔ BinaryOp.gt.Holds r l) ∧
    (BinaryOp.le.Holds l r ↔ BinaryOp.ge.Holds r l) ∧
    ¬ (BinaryOp.lt.Holds l r ∧ BinaryOp.gt.Holds l r) ∧
    (BinaryOp.le.Holds l r ↔ BinaryOp.lt.Holds l r ∨
      l.compare? r = some .eq ∧ l.isVoid = false ∧ r.isVoid = false) ∧
    (l.isVoid = true ∨ r.isVoid = true →
      (∀ op : BinaryOp, op.isOrdering = true → op.apply l r = .ok (.bool false)) ∧
      (BinaryOp.eq.Holds l r ↔ l.isNullish = true ∧ r.isNullish = true)) := by
  refine ⟨fun op => exists_apply_of_compares, ?_, holds_ne_iff, ?_, holds_converse rfl,
    holds_converse rfl, not_lt_and_gt, holds_le_iff, fun void =>
      ⟨fun op h => apply_of_isVoid h void, ?_⟩⟩
  · rw [holds_eq_iff, holds_eq_iff, Value.looseEq_comm hl hr]
  · rw [holds_strictEq_iff, holds_eq_iff]
    exact Value.looseEq_of_strictEq
  · rw [holds_eq_iff, Value.looseEq_of_isVoid hl hr void, Bool.and_eq_true]

-- As texts the two would be the other way round, and a void operand is below nothing.
theorem comparisons_consistent_ten :
    let ten : Value := .text "10"
    let nine : Value := .number 9.0
    ten.KeysUnique ∧ nine.KeysUnique ∧ BinaryOp.gt.Holds ten nine ∧
      BinaryOp.lt.Holds nine ten ∧
      ¬ BinaryOp.lt.Holds ten nine ∧ Value.null.isVoid = true ∧
      ¬ BinaryOp.eq.Holds ten .null := by
  intro ten nine
  have above : BinaryOp.gt.Holds ten nine :=
    (holds_iff_of_isOrdering rfl).2 (by decide +kernel)
  obtain ⟨-, -, -, -, below, -⟩ := comparisons_consistent (.number 9.0) (.text "10")
  obtain ⟨-, -, -, -, -, -, notBoth, -⟩ := comparisons_consistent (.text "10") (.number 9.0)
  obtain ⟨-, -, -, -, -, -, -, -, void⟩ := comparisons_consistent (.text "10") .null
  refine ⟨.text "10", .number 9.0, above, below.2 above, fun less =>
    notBoth ⟨less, above⟩, rfl, fun equal => ?_⟩
  cases ((void (.inr rfl)).2.1 equal).1

end BinaryOp

end GuardedExpr
