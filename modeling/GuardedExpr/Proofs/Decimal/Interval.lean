import GuardedExpr.Decimal.Shortest
import Mathlib.Algebra.Order.Field.Power
import Mathlib.Tactic.FieldSimp
import Mathlib.Tactic.Linarith
import Mathlib.Tactic.Positivity
import Mathlib.Tactic.Ring

/-!
# What rounds to a double

The numbers that round to a double are those between the halfways to its two neighbours,
the halfways included if its mantissa is even. Without their signs the finite doubles
stand in the order of their bits, each ends where the next begins, and one of the two
has an odd mantissa. So no number rounds to two of them, and the decimal that is found
for a double determines it.
-/

namespace GuardedExpr

/-- The number that the decimal stands for. -/
def Decimal.value (d : Decimal) : ℚ :=
  d.digits * 10 ^ d.exponent

namespace Magnitude

def value (x : Magnitude) : ℚ :=
  x.mantissa * 2 ^ x.exponent

/-- The halfway to the neighbour below. -/
def low (x : Magnitude) : ℚ :=
  (4 * x.mantissa - if x.narrowBelow then 1 else 2) * 2 ^ (x.exponent - 2)

/-- The halfway to the neighbour above. -/
def high (x : Magnitude) : ℚ :=
  (4 * x.mantissa + 2) * 2 ^ (x.exponent - 2)

/-- The number is one of those that round to this value. -/
structure Covers (x : Magnitude) (v : ℚ) : Prop where
  above : x.low < v ∨ x.mantissa % 2 = 0 ∧ v = x.low
  below : v < x.high ∨ x.mantissa % 2 = 0 ∧ v = x.high

end Magnitude

/-! ## Comparing in whole numbers -/

section

variable (a b : Nat) (i j : Int)

theorem zpow_mul_pow_toNat (base : ℚ) (h : base ≠ 0) (k : Int) :
    base ^ k * base ^ (-k).toNat = base ^ k.toNat := by
  rw [← zpow_natCast, ← zpow_natCast, ← zpow_add₀ h]
  congr 1
  omega

theorem scaled_left :
    ((a * Nat.pow 10 i.toNat * Nat.pow 2 (-j).toNat : Nat) : ℚ) =
      a * 10 ^ i * (10 ^ (-i).toNat * 2 ^ (-j).toNat) := by
  have power := zpow_mul_pow_toNat 10 (by decide) i
  rw [Nat.cast_mul, Nat.cast_mul, Nat.pow_eq, Nat.pow_eq, Nat.cast_pow, Nat.cast_pow,
    Nat.cast_ofNat, Nat.cast_ofNat, ← power]
  ring

theorem scaled_right :
    ((b * Nat.pow 2 j.toNat * Nat.pow 10 (-i).toNat : Nat) : ℚ) =
      b * 2 ^ j * (10 ^ (-i).toNat * 2 ^ (-j).toNat) := by
  have power := zpow_mul_pow_toNat 2 (by decide) j
  rw [Nat.cast_mul, Nat.cast_mul, Nat.pow_eq, Nat.pow_eq, Nat.cast_pow, Nat.cast_pow,
    Nat.cast_ofNat, Nat.cast_ofNat, ← power]
  ring

theorem scale_pos : (0 : ℚ) < 10 ^ (-i).toNat * 2 ^ (-j).toNat := by
  positivity

theorem compareScaled_eq_gt :
    compareScaled a i b j = .gt ↔ (b * 2 ^ j : ℚ) < a * 10 ^ i := by
  rw [compareScaled, Nat.compare_eq_gt, ← Nat.cast_lt (α := ℚ), scaled_left, scaled_right,
    mul_lt_mul_iff_of_pos_right (scale_pos i j)]

theorem compareScaled_eq_lt :
    compareScaled a i b j = .lt ↔ (a * 10 ^ i : ℚ) < b * 2 ^ j := by
  rw [compareScaled, Nat.compare_eq_lt, ← Nat.cast_lt (α := ℚ), scaled_left, scaled_right,
    mul_lt_mul_iff_of_pos_right (scale_pos i j)]

theorem compareScaled_eq_eq :
    compareScaled a i b j = .eq ↔ (a * 10 ^ i : ℚ) = b * 2 ^ j := by
  rw [compareScaled, Nat.compare_eq_eq, ← Nat.cast_inj (R := ℚ), scaled_left, scaled_right,
    mul_left_inj' (scale_pos i j).ne']

end

namespace Magnitude

variable {x : Magnitude} {d : Decimal} {v : ℚ} {m n : Nat}

/-! ## The decimal that is found -/

theorem readsBack_iff (positive : 0 < x.mantissa) :
    x.readsBack d = true ↔ x.Covers d.value := by
  have low : (((if x.narrowBelow then 4 * x.mantissa - 1
      else 4 * x.mantissa - 2 : Nat) : Nat) : ℚ) =
        4 * x.mantissa - if x.narrowBelow then 1 else 2 := by
    split
    · rw [Nat.cast_sub (by omega)]
      push_cast
      rfl
    · rw [Nat.cast_sub (by omega)]
      push_cast
      rfl
  have high : ((4 * x.mantissa + 2 : Nat) : ℚ) = 4 * x.mantissa + 2 := by
    push_cast
    rfl
  rw [readsBack]
  simp only [Bool.and_eq_true, Bool.or_eq_true, decide_eq_true_eq, compareScaled_eq_gt,
    compareScaled_eq_lt, compareScaled_eq_eq, low, high]
  exact ⟨fun h => ⟨h.1, h.2⟩, fun h => ⟨h.above, h.below⟩⟩

theorem value_eq_quarters (x : Magnitude) :
    x.value = 4 * x.mantissa * 2 ^ (x.exponent - 2) := by
  rw [value, zpow_sub₀ (by decide)]
  ring

theorem unit_pos (x : Magnitude) : (0 : ℚ) < 2 ^ (x.exponent - 2) := by
  positivity

theorem low_lt_value (x : Magnitude) : x.low < x.value := by
  rw [value_eq_quarters, low]
  refine mul_lt_mul_of_pos_right ?_ x.unit_pos
  split <;> linarith

theorem value_lt_high (x : Magnitude) : x.value < x.high := by
  rw [value_eq_quarters, high]
  exact mul_lt_mul_of_pos_right (by linarith) x.unit_pos

theorem covers_value (x : Magnitude) : x.Covers x.value :=
  ⟨.inl x.low_lt_value, .inl x.value_lt_high⟩

theorem value_exact (x : Magnitude) : x.exact.value = x.value := by
  rw [exact]
  split
  case isTrue h =>
    obtain ⟨k, hk⟩ := Int.eq_ofNat_of_zero_le h
    rw [Decimal.value, value, hk, Int.toNat_natCast, Nat.pow_eq, Nat.cast_mul, Nat.cast_pow,
      Nat.cast_ofNat, zpow_zero, zpow_natCast, mul_one]
  case isFalse h =>
    obtain ⟨k, hk⟩ : ∃ k : Nat, x.exponent = -k := ⟨x.exponent.natAbs, by omega⟩
    have tenths : (10 : ℚ) ^ k = 5 ^ k * 2 ^ k := by
      rw [← mul_pow]
      norm_num
    rw [Decimal.value, value, hk, neg_neg, Int.toNat_natCast, Nat.pow_eq, Nat.cast_mul,
      Nat.cast_pow, Nat.cast_ofNat, zpow_neg, zpow_neg, zpow_natCast, zpow_natCast, tenths]
    field_simp

theorem value_of_whole? (h : x.whole? = some n) : (n : ℚ) = x.value := by
  rw [whole?] at h
  split at h
  case isTrue above =>
    obtain ⟨k, hk⟩ := Int.eq_ofNat_of_zero_le above
    obtain rfl := Option.some.inj h
    rw [value, hk, Int.toNat_natCast, Nat.pow_eq, zpow_natCast]
    push_cast
    rfl
  case isFalse below =>
    obtain ⟨k, hk⟩ : ∃ k : Nat, x.exponent = -k := ⟨x.exponent.natAbs, by omega⟩
    rw [hk, neg_neg, Int.toNat_natCast, Nat.pow_eq] at h
    extract_lets unit at h
    split at h
    case isTrue divides =>
      obtain rfl := Option.some.inj h
      have whole : ((x.mantissa / unit * unit : Nat) : ℚ) = x.mantissa :=
        congrArg Nat.cast (Nat.div_mul_cancel (Nat.dvd_of_mod_eq_zero divides))
      have power : (unit : ℚ) = 2 ^ k := by
        rw [Nat.cast_pow, Nat.cast_ofNat]
      rw [value, hk, ← whole, Nat.cast_mul, power, zpow_neg, zpow_natCast,
        mul_inv_cancel_right₀ (by positivity)]
    case isFalse => cases h

theorem readsBack_of_onGrid? {grid : Int} (h : x.onGrid? grid = some d) :
    x.readsBack d = true := by
  rw [onGrid?] at h
  split at h
  case h_1 below above =>
    split at h <;> obtain rfl := Option.some.inj h
    · exact below
    · exact above
  case h_2 below _ =>
    obtain rfl := Option.some.inj h
    exact below
  case h_3 _ above =>
    obtain rfl := Option.some.inj h
    exact above
  case h_4 => cases h

/-- The decimal that is found for a value rounds to it. -/
theorem covers_shortest (positive : 0 < x.mantissa) : x.Covers x.shortest.value := by
  have onGrid : ∀ d, ((List.range 17).findSome? fun (n : Nat) =>
      x.onGrid? (x.scale - 1 - n)) = some d → x.Covers d.value := by
    intro d found
    obtain ⟨digits, -, grid⟩ := List.exists_of_findSome?_eq_some found
    exact (readsBack_iff positive).1 (readsBack_of_onGrid? grid)
  -- `rw` does not get through the equations of `shortest`.
  delta shortest
  revert onGrid
  dsimp only
  generalize ((List.range 17).findSome? fun (n : Nat) => x.onGrid? (x.scale - 1 - n)) = found
  intro onGrid
  cases found with
  | some d => exact onGrid d rfl
  | none =>
    show x.Covers x.exact.value
    rw [value_exact]
    exact x.covers_value

theorem Covers.low_le (h : x.Covers v) : x.low ≤ v :=
  h.above.elim le_of_lt fun at_low => at_low.2.ge

theorem Covers.le_high (h : x.Covers v) : v ≤ x.high :=
  h.below.elim le_of_lt fun at_high => at_high.2.le

theorem Covers.pos (positive : 0 < x.mantissa) (h : x.Covers v) : 0 < v := by
  have one : (1 : ℚ) ≤ x.mantissa := Nat.one_le_cast.2 positive
  refine lt_of_lt_of_le (mul_pos ?_ x.unit_pos) h.low_le
  split <;> linarith

/-! ## Neighbours -/

/-- The magnitudes in their order: the one of the double without a
sign whose bits are `n`. -/
def nth (n : Nat) : Magnitude :=
  let field := n / Nat.pow 2 52
  let fraction := n % Nat.pow 2 52
  if field = 0 then ⟨fraction, -1074, false⟩
  else ⟨Nat.pow 2 52 + fraction, (field : Int) - 1075, fraction = 0 ∧ 1 < field⟩

theorem ofBits_eq_nth {bits : UInt64} (h : bits.toNat < 2 ^ 63) :
    ofBits bits = nth bits.toNat := by
  have field : bits.toNat / Nat.pow 2 52 % Nat.pow 2 11 = bits.toNat / Nat.pow 2 52 :=
    Nat.mod_eq_of_lt (Nat.div_lt_of_lt_mul h)
  rw [ofBits, nth, field]

theorem nth_of_lt (h : n < Nat.pow 2 52) : nth n = ⟨n, -1074, false⟩ := by
  rw [nth, Nat.div_eq_of_lt h, Nat.mod_eq_of_lt h]
  rfl

theorem nth_of_fraction {field fraction : Nat} (hfield : 0 < field)
    (h : fraction < Nat.pow 2 52) :
    nth (field * Nat.pow 2 52 + fraction) =
      ⟨Nat.pow 2 52 + fraction, (field : Int) - 1075, fraction = 0 ∧ 1 < field⟩ := by
  rw [nth, Nat.mul_add_mod_of_lt h, Nat.mul_comm, Nat.mul_add_div (by decide),
    Nat.div_eq_of_lt h, Nat.add_zero]
  exact if_neg hfield.ne'

theorem mantissa_nth_mod (n : Nat) : (nth n).mantissa % 2 = n % 2 := by
  have bound : Nat.pow 2 52 = 4503599627370496 := rfl
  by_cases subnormal : n < Nat.pow 2 52
  · rw [nth_of_lt subnormal]
  · have split := Nat.div_add_mod' n (Nat.pow 2 52)
    have normal : 0 < n / Nat.pow 2 52 := Nat.div_pos (Nat.not_lt.1 subnormal) (by decide)
    rw [← split, nth_of_fraction normal (Nat.mod_lt _ (by decide)), bound]
    show (4503599627370496 + _) % 2 = _
    omega

theorem high_eq_low_of_step (mantissa : Nat) (exponent : Int) (narrow : Bool) :
    high ⟨mantissa, exponent, narrow⟩ = low ⟨mantissa + 1, exponent, false⟩ := by
  rw [high, low, if_neg Bool.false_ne_true]
  push_cast
  ring

theorem high_eq_low_of_carry {mantissa half : Nat} (carry : mantissa + 1 = 2 * half)
    (exponent : Int) (narrow : Bool) :
    high ⟨mantissa, exponent, narrow⟩ = low ⟨half, exponent + 1, true⟩ := by
  have double : (mantissa : ℚ) = 2 * half - 1 := by
    rw [eq_sub_iff_add_eq]
    exact_mod_cast carry
  rw [high, low, if_pos rfl, double, add_sub_right_comm, zpow_add₀ (by decide), zpow_one]
  ring

/-- Each ends where the next begins. -/
theorem high_nth (n : Nat) : (nth n).high = (nth (n + 1)).low := by
  by_cases subnormal : n + 1 < Nat.pow 2 52
  · rw [nth_of_lt (Nat.lt_of_succ_lt subnormal), nth_of_lt subnormal, high_eq_low_of_step]
  obtain ⟨field, fraction, hfraction, rfl⟩ :
      ∃ field fraction, fraction < Nat.pow 2 52 ∧ n = field * Nat.pow 2 52 + fraction :=
    ⟨n / Nat.pow 2 52, n % Nat.pow 2 52, Nat.mod_lt _ (by decide),
      (Nat.div_add_mod' _ _).symm⟩
  -- A carry out of the fraction doubles the unit, but not behind the subnormals.
  by_cases carry : fraction + 1 < Nat.pow 2 52
  · have normal : 0 < field := by
      rw [Nat.pos_iff_ne_zero]
      rintro rfl
      rw [Nat.zero_mul, Nat.zero_add] at subnormal
      exact subnormal carry
    rw [nth_of_fraction normal hfraction, Nat.add_assoc, nth_of_fraction normal carry,
      high_eq_low_of_step, Nat.add_assoc, decide_eq_false (fun h => Nat.succ_ne_zero _ h.1)]
  · have full : fraction + 1 = Nat.pow 2 52 := Nat.le_antisymm hfraction (Nat.not_lt.1 carry)
    have next : field * Nat.pow 2 52 + fraction + 1 = (field + 1) * Nat.pow 2 52 + 0 := by
      rw [Nat.add_assoc, full, Nat.succ_mul, Nat.add_zero]
    rw [next, nth_of_fraction (Nat.succ_pos field) (by decide)]
    rcases Nat.eq_zero_or_pos field with rfl | normal
    · rw [Nat.zero_mul, Nat.zero_add, nth_of_lt hfraction, high_eq_low_of_step, full]
      rfl
    · have exponent : ((field + 1 : Nat) : Int) - 1075 = (field : Int) - 1075 + 1 := by omega
      have narrow : decide (0 = 0 ∧ 1 < field + 1) = true :=
        decide_eq_true ⟨rfl, Nat.succ_lt_succ normal⟩
      rw [nth_of_fraction normal hfraction, exponent, narrow]
      refine high_eq_low_of_carry ?_ _ _
      rw [Nat.add_assoc, full, Nat.add_zero, Nat.two_mul]

theorem low_lt_high (x : Magnitude) : x.low < x.high :=
  x.low_lt_value.trans x.value_lt_high

theorem high_nth_strictMono : StrictMono fun n => (nth n).high :=
  strictMono_nat_of_lt_succ fun n => (high_nth n).trans_lt (nth (n + 1)).low_lt_high

theorem Covers.not_lt (h : (nth m).Covers v) (h' : (nth n).Covers v) : ¬ m < n := by
  intro before
  obtain ⟨n, rfl⟩ : ∃ k, n = k + 1 := ⟨n - 1, by omega⟩
  have later : (nth n).high ≤ (nth m).high := by
    rw [high_nth]
    exact h'.low_le.trans h.le_high
  obtain rfl : n = m := Nat.le_antisymm (high_nth_strictMono.le_iff_le.1 later) (by omega)
  have seam : v = (nth n).high := le_antisymm h.le_high (high_nth n ▸ h'.low_le)
  have even := (h.below.resolve_left fun inside => absurd seam inside.ne).1
  have even' :=
    (h'.above.resolve_left fun inside => absurd (seam.trans (high_nth n)) inside.ne').1
  rw [mantissa_nth_mod] at even even'
  omega

/-- No number rounds to two doubles. -/
theorem Covers.unique (h : (nth m).Covers v) (h' : (nth n).Covers v) : m = n :=
  Nat.le_antisymm (Nat.not_lt.1 (h'.not_lt h)) (Nat.not_lt.1 (h.not_lt h'))

end Magnitude

end GuardedExpr
