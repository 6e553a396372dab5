import GuardedExpr.Proofs.Decimal.Writing
import Mathlib

/-!
# Whole numbers as doubles

A natural number of at most 53 bits is a double: its leading bit is moved to the
top place of the mantissa and nothing is lost. So the number that is found in
that double is the same one.
-/

namespace GuardedExpr

open Float.Model (UnpackedFloat Format totalExponent)
open Float.Model.UnpackedFloat (Sign Accuracy ExtendedMantissa)

/-- The mantissa has all its 53 bits, and the exponent is one of a double. -/
structure IsNormal (mantissa : Nat) (exponent : Int) : Prop where
  low : 2 ^ 52 ≤ mantissa
  high : mantissa < 2 ^ 53
  bottom : -1074 ≤ exponent
  top : exponent ≤ 971

variable {sign : Sign} {m n : Nat} {e : Int} {x : Float}

namespace IsNormal

theorem pos (h : IsNormal m e) : 0 < m :=
  Nat.lt_of_lt_of_le (by decide) h.low

theorem log2 (h : IsNormal m e) : m.log2 = 52 :=
  (Nat.log2_eq_iff h.pos.ne').2 ⟨h.low, h.high⟩

/-! ## Rounding what fits -/

theorem targetExponent (h : IsNormal m e) (moved : Nat) :
    Format.binary64.targetExponent (totalExponent (m * 2 ^ moved) (e - moved)) = e := by
  have leading : (m * 2 ^ moved).log2 = 52 + moved := by
    have positive := Nat.two_pow_pos moved
    refine (Nat.log2_eq_iff (Nat.mul_pos h.pos positive).ne').2 ⟨?_, ?_⟩
    · rw [Nat.pow_add]
      exact Nat.mul_le_mul_right _ h.low
    · rw [Nat.add_right_comm, Nat.pow_add]
      exact Nat.mul_lt_mul_of_pos_right h.high positive
  have bottom := h.bottom
  rw [totalExponent, leading, Format.targetExponent, Format.minExponent, Format.mantissaBits]
  push_cast
  omega

end IsNormal

/-- Bits that are off leave no trace when they are moved out. -/
theorem shiftRight_mul_two_pow (m moved : Nat) :
    (⟨m * 2 ^ moved, false, false⟩ : ExtendedMantissa) >>> moved = ⟨m, false, false⟩ := by
  show moved.repeat ExtendedMantissa.shiftRightOne _ = _
  induction moved generalizing m with
  | zero => rw [Nat.repeat, Nat.pow_zero, Nat.mul_one]
  | succ moved ih =>
    have last : ExtendedMantissa.shiftRightOne ⟨m * 2, false, false⟩ =
        ⟨m, false, false⟩ := by
      rw [ExtendedMantissa.shiftRightOne, Nat.mul_div_cancel m (by decide), Nat.mul_mod_left]
      rfl
    rw [Nat.repeat, Nat.pow_succ', ← Nat.mul_assoc, ih, last]

theorem shiftToTargetExponent_mul_two_pow (h : IsNormal m e) (moved : Nat) :
    UnpackedFloat.shiftToTargetExponent Format.binary64 (m * 2 ^ moved) (e - moved) .exact =
      (⟨m, false, false⟩, e) := by
  have amount : (e - (e - moved)).toNat = moved := by omega
  rw [UnpackedFloat.shiftToTargetExponent, h.targetExponent moved]
  dsimp only [UnpackedFloat.shiftToExponent]
  rw [amount, ExtendedMantissa.ofMantissaAndAccuracy, shiftRight_mul_two_pow, sub_add_cancel]

/-- A number that has a place among the doubles stays the same, however far
its mantissa was moved. -/
theorem roundWithAccuracy_mul_two_pow (h : IsNormal m e) (moved : Nat) :
    UnpackedFloat.roundWithAccuracy Format.binary64 sign (m * 2 ^ moved) (e - moved) .exact =
      .finite sign m e h.pos := by
  have settled := shiftToTargetExponent_mul_two_pow h 0
  rw [Nat.pow_zero, Nat.mul_one, Nat.cast_zero, sub_zero] at settled
  have rounded : ExtendedMantissa.roundedMantissa ⟨m, false, false⟩ = m := rfl
  simp only [UnpackedFloat.roundWithAccuracy, shiftToTargetExponent_mul_two_pow h moved,
    rounded, settled, h.pos.ne', dif_neg, not_false_iff]

theorem round_of_lt (positive : 0 < n) (small : n < 2 ^ 53) :
    ∃ moved : Nat, ∃ h : IsNormal (n * 2 ^ moved) (-moved),
      UnpackedFloat.round Format.binary64 .positive n 0 =
        .finite .positive (n * 2 ^ moved) (-moved) h.pos := by
  have leading : n.log2 ≤ 52 := Nat.le_of_lt_succ ((Nat.log2_lt positive.ne').2 small)
  obtain ⟨moved, rest⟩ := Nat.exists_eq_add_of_le leading
  obtain ⟨low, high⟩ := (Nat.log2_eq_iff positive.ne').1 (rfl : n.log2 = n.log2)
  have normal : IsNormal (n * 2 ^ moved) (-moved) := by
    constructor
    · calc 2 ^ 52 = 2 ^ n.log2 * 2 ^ moved := by rw [rest, Nat.pow_add]
        _ ≤ n * 2 ^ moved := Nat.mul_le_mul_right _ low
    · calc n * 2 ^ moved < 2 ^ (n.log2 + 1) * 2 ^ moved :=
          Nat.mul_lt_mul_of_pos_right high (Nat.two_pow_pos moved)
        _ = 2 ^ 53 := by rw [← Nat.pow_add, Nat.add_right_comm, ← rest]
    · omega
    · omega
  have target : Format.binary64.targetExponent (totalExponent n 0) = -moved := by
    rw [totalExponent, Format.targetExponent, Format.minExponent, Format.mantissaBits]
    push_cast
    omega
  refine ⟨moved, normal, ?_⟩
  have settled := @roundWithAccuracy_mul_two_pow .positive _ _ normal 0
  rw [Nat.pow_zero, Nat.mul_one, Nat.cast_zero, sub_zero] at settled
  rw [UnpackedFloat.round, target, UnpackedFloat.decreaseExponent, zero_sub, neg_neg,
    Int.toNat_natCast, Nat.shiftLeft_eq, zero_sub]
  exact settled

/-! ## The bits of a number -/

section

variable (bits : BitVec 64)

theorem toNat_unpackExponent :
    (@UnpackedFloat.unpackExponent Format.binary64 bits).toNat =
      bits.toNat / 2 ^ 52 % 2 ^ 11 := by
  rw [UnpackedFloat.unpackExponent, BitVec.toNat_cast, BitVec.extractLsb_toNat,
    Nat.shiftRight_eq_div_pow]
  rfl

theorem toNat_unpackMantissa :
    (@UnpackedFloat.unpackMantissa Format.binary64 bits).toNat = bits.toNat % 2 ^ 52 := by
  rw [UnpackedFloat.unpackMantissa, BitVec.toNat_cast, BitVec.extractLsb_toNat,
    Nat.shiftRight_zero]
  rfl

theorem toNat_one_append (mantissa : BitVec 52) :
    (1#1 ++ mantissa).toNat = 2 ^ 52 + mantissa.toNat := by
  rw [BitVec.toNat_append, ← Nat.shiftLeft_add_eq_or_of_lt mantissa.isLt]
  rfl

end

/-- The magnitude in the bits of a finite number is the number. -/
theorem ofBits_eq_of_unpack {positive : 0 < m}
    (h : x.toModel.unpack = .finite sign m e positive) :
    (Magnitude.ofBits x.toBits).mantissa = m ∧ (Magnitude.ofBits x.toBits).exponent = e := by
  have exponent := toNat_unpackExponent x.toBits.toBitVec
  have mantissa := toNat_unpackMantissa x.toBits.toBitVec
  have unpacked : UnpackedFloat.unpack Format.binary64 x.toBits.toBitVec =
      .finite sign m e positive := h
  delta UnpackedFloat.unpack at unpacked
  dsimp only at unpacked
  split at unpacked
  case isTrue => split at unpacked <;> cases unpacked
  case isFalse proper =>
    split at unpacked
    case isTrue zero =>
      split at unpacked
      case isTrue => cases unpacked
      case isFalse nonzero =>
        rw [UnpackedFloat.finite.injEq] at unpacked
        obtain ⟨-, same, place⟩ := unpacked
        rw [zero] at exponent place
        have field : x.toBits.toNat / Nat.pow 2 52 % Nat.pow 2 11 = 0 := exponent.symm
        have bottom : (0 : Int) - (1023 + 52) + 1 = e := place
        rw [Magnitude.ofBits, if_pos field]
        exact ⟨mantissa.symm.trans same, by rw [← bottom]; rfl⟩
    case isFalse nonzero =>
      rw [UnpackedFloat.finite.injEq] at unpacked
      obtain ⟨-, same, place⟩ := unpacked
      have field : x.toBits.toNat / Nat.pow 2 52 % Nat.pow 2 11 ≠ 0 := fun zero =>
        nonzero (BitVec.eq_of_toNat_eq (exponent.trans zero))
      have place : ((x.toBits.toNat / Nat.pow 2 52 % Nat.pow 2 11 : Nat) : Int) -
          (1023 + 52) = e := by
        rw [← place]
        exact congrArg (fun field : Nat => (field : Int) - (1023 + 52)) exponent.symm
      rw [Magnitude.ofBits, if_neg field]
      refine ⟨?_, place⟩
      rw [← same, toNat_one_append, mantissa]
      rfl

/-- The fields of a normal number say what it is. -/
theorem unpack_packComponents {exponent : BitVec 11} {mantissa : BitVec 52}
    (proper : exponent ≠ -1#11) (normal : exponent ≠ 0#11) :
    UnpackedFloat.unpack Format.binary64
        (UnpackedFloat.packComponents Format.binary64 .positive exponent mantissa) =
      .finite .positive (1#1 ++ mantissa).toNat (exponent.toNat - (1023 + 52))
        (by rw [toNat_one_append]; exact Nat.add_pos_left (by decide) _) := by
  rw [UnpackedFloat.unpack]
  simp only [UnpackedFloat.unpackExponent_packComponents,
    UnpackedFloat.unpackMantissa_packComponents, UnpackedFloat.unpackSign_packComponents]
  rw [if_neg proper, if_neg normal]
  rfl

theorem unpack_pack (h : IsNormal m e) :
    UnpackedFloat.unpack Format.binary64
      (UnpackedFloat.pack Format.binary64 (.finite .positive m e h.pos)) =
      .finite .positive m e h.pos := by
  have ⟨low, high, bottom, top⟩ := h
  have field : (e + Format.binary64.exponentBias +
      Format.binary64.mantissaBitsWithoutImplicit).toNat = (e + 1075).toNat := by
    show (e + 1023 + 52).toNat = _
    omega
  have packed : UnpackedFloat.pack Format.binary64 (.finite .positive m e h.pos) =
      UnpackedFloat.packComponents Format.binary64 .positive
        (BitVec.ofNat 11 (e + 1075).toNat)
        (BitVec.ofNat 52 m) := by
    have fits : ¬ 2 ^ 11 ≤ (e + 1075).toNat + 1 := by omega
    have full : m.log2 + 1 = Format.binary64.mantissaBits := by
      rw [h.log2]
      rfl
    rw [UnpackedFloat.pack]
    dsimp only
    rw [field, if_neg fits, if_pos full]
  have exponent : (BitVec.ofNat 11 (e + 1075).toNat).toNat = (e + 1075).toNat := by
    rw [BitVec.toNat_ofNat]
    omega
  have mantissa : (1#1 ++ BitVec.ofNat 52 m).toNat = m := by
    rw [toNat_one_append, BitVec.toNat_ofNat]
    omega
  have place : ((BitVec.ofNat 11 (e + 1075).toNat).toNat : Int) - (1023 + 52) = e := by omega
  have proper : BitVec.ofNat 11 (e + 1075).toNat ≠ -1#11 := by
    intro same
    have all : (BitVec.ofNat 11 (e + 1075).toNat).toNat = 2047 := congrArg BitVec.toNat same
    omega
  have normal : BitVec.ofNat 11 (e + 1075).toNat ≠ 0#11 := by
    intro same
    have none : (BitVec.ofNat 11 (e + 1075).toNat).toNat = 0 := congrArg BitVec.toNat same
    omega
  rw [packed, unpack_packComponents proper normal, UnpackedFloat.finite.injEq]
  exact ⟨rfl, mantissa, place⟩

/-! ## Numbers of at most 53 bits -/

theorem unpack_one : (Float.ofBits 0x3FF0000000000000).toModel.unpack =
    .finite .positive (2 ^ 52) (-52) (by decide) := by
  rfl

theorem ofNat_eq_mul (small : n < 2 ^ 53) :
    Float.ofNat n = n.toUInt64.toFloat * Float.ofBits 0x3FF0000000000000 := by
  show Float.ofScientific n false 0 = _
  delta Float.ofScientific
  dsimp only
  rw [dif_pos ⟨small, by decide⟩]
  rfl

theorem unpack_ofNat (positive : 0 < n) (small : n < 2 ^ 53) :
    ∃ moved : Nat, ∃ h : IsNormal (n * 2 ^ moved) (-moved),
      (Float.ofNat n).toModel.unpack = .finite .positive (n * 2 ^ moved) (-moved) h.pos := by
  obtain ⟨moved, h, rounded⟩ := round_of_lt positive small
  have same : n.toUInt64.toNat = n :=
    UInt64.toNat_ofNat_of_lt (Nat.lt_trans small (by decide))
  have above : compare (n : Int) 0 = .gt := Int.compare_eq_gt.2 (Int.natCast_pos.2 positive)
  have converted : UnpackedFloat.ofNat Format.binary64 n =
      .finite .positive (n * 2 ^ moved) (-moved) h.pos := by
    rw [UnpackedFloat.ofNat, UnpackedFloat.ofInt, UnpackedFloat.normalize, above]
    exact rounded
  have made : (n.toUInt64.toFloat).toModel.unpack =
      .finite .positive (n * 2 ^ moved) (-moved) h.pos := by
    show UnpackedFloat.unpack _
      (UnpackedFloat.pack _ (UnpackedFloat.ofNat _ n.toUInt64.toNat)) = _
    rw [same, converted, unpack_pack h]
  have product : UnpackedFloat.mul Format.binary64 (n.toUInt64.toFloat).toModel.unpack
      (Float.ofBits 0x3FF0000000000000).toModel.unpack =
        .finite .positive (n * 2 ^ moved) (-moved) h.pos := by
    rw [made, unpack_one]
    exact roundWithAccuracy_mul_two_pow h 52
  refine ⟨moved, h, ?_⟩
  rw [ofNat_eq_mul small]
  show UnpackedFloat.unpack _ (UnpackedFloat.pack _ (UnpackedFloat.mul _ _ _)) = _
  rw [product, unpack_pack h]

theorem whole?_mul_two_pow (n moved : Nat) (narrow : Bool) :
    Magnitude.whole? ⟨n * 2 ^ moved, -moved, narrow⟩ = some n := by
  rw [Magnitude.whole?]
  dsimp only
  split
  case isTrue unmoved =>
    obtain rfl : moved = 0 := by omega
    rw [Nat.pow_zero, Nat.mul_one]
    exact congrArg some (Nat.mul_one n)
  case isFalse =>
    have power : Nat.pow 2 (- -(moved : Int)).toNat = 2 ^ moved := by
      rw [neg_neg, Int.toNat_natCast]
      rfl
    rw [power, if_pos (Nat.mul_mod_left n _), Nat.mul_div_cancel n (Nat.two_pow_pos moved)]

/-- A natural number of at most 53 bits is found in the double that is made of it. -/
theorem natOf?_ofNat (small : n < 2 ^ 53) : natOf? (Float.ofNat n) = some n := by
  rcases Nat.eq_zero_or_pos n with rfl | positive
  · decide +kernel
  obtain ⟨moved, h, unpacked⟩ := unpack_ofNat positive small
  obtain ⟨mantissa, exponent⟩ := ofBits_eq_of_unpack unpacked
  have finite : (Float.ofNat n).isFinite = true := by
    show (Float.ofNat n).toModel.unpack.isFinite = true
    rw [unpacked]
    rfl
  have whole : (Magnitude.ofBits (Float.ofNat n).toBits).whole? = some n := by
    rw [← whole?_mul_two_pow n moved (Magnitude.ofBits (Float.ofNat n).toBits).narrowBelow,
      ← mantissa, ← exponent]
  have unsigned : signBit (Float.ofNat n) = false := signBit_ofScientific n false 0
  rw [natOf?, Value.isNaN_of_isFinite finite, Value.isInfinite_of_isFinite finite,
    whole, unsigned]
  cases n with
  | zero => rfl
  | succ n => rfl

/-- The double is the whole number, for zero also the one with a sign. -/
def IsWhole (x : Float) (n : Nat) : Prop :=
  x = Float.ofNat n ∨ n = 0 ∧ x = -0.0

theorem IsWhole.natOf? (h : IsWhole x n) (small : n < 2 ^ 53) : natOf? x = some n := by
  rcases h with rfl | ⟨rfl, rfl⟩
  · exact natOf?_ofNat small
  · decide +kernel

end GuardedExpr
