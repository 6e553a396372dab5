import GuardedExpr.Decimal.Numeral
import Mathlib.Algebra.Group.Nat.Defs

/-!
# Numbers without a sign

Arithmetic gives no sign to what it makes of numbers without one. As a numeral has no sign,
neither has the number that is read from it.
-/

namespace GuardedExpr

open Float.Model (UnpackedFloat Format)

/-- The number has no sign, if it is one. -/
def Unsigned : UnpackedFloat → Prop
  | .infinity sign => sign = .positive
  | .notANumber => True
  | .zero sign => sign = .positive
  | .finite sign _ _ _ => sign = .positive

section

variable {u v : UnpackedFloat} {bits : BitVec 64} {x y : Float}

/-! ## Bits -/

theorem unsigned_unpack (h : bits.toNat < 2 ^ 63) :
    Unsigned (UnpackedFloat.unpack Format.binary64 bits) := by
  have sign : UnpackedFloat.Sign.ofBitVec
      (@UnpackedFloat.unpackSign Format.binary64 bits) = .positive := by
    have off : @UnpackedFloat.unpackSign Format.binary64 bits = 0#1 := by
      apply BitVec.eq_of_toNat_eq
      delta UnpackedFloat.unpackSign
      rw [BitVec.toNat_cast, BitVec.extractLsb_toNat]
      show bits.toNat >>> 63 % 2 = 0
      rw [Nat.shiftRight_eq_div_pow, Nat.div_eq_of_lt h]
    rw [off]
    rfl
  delta UnpackedFloat.unpack
  dsimp only
  rw [sign]
  by_cases full : @UnpackedFloat.unpackExponent Format.binary64 bits = -1#_
  · rw [if_pos full]
    by_cases none : @UnpackedFloat.unpackMantissa Format.binary64 bits = 0#_
    · rw [if_pos none]
      rfl
    · rw [if_neg none]
      trivial
  · rw [if_neg full]
    by_cases exponent : @UnpackedFloat.unpackExponent Format.binary64 bits = 0#_
    · rw [if_pos exponent]
      by_cases mantissa : @UnpackedFloat.unpackMantissa Format.binary64 bits = 0#_
      · rw [dif_pos mantissa]
        rfl
      · rw [dif_neg mantissa]
        rfl
    · rw [if_neg exponent]
      rfl

theorem toNat_packComponents_lt (exponent : BitVec 11) (mantissa : BitVec 52) :
    (UnpackedFloat.packComponents Format.binary64 .positive exponent mantissa).toNat <
      2 ^ 63 := by
  show ((0#1 ++ exponent) ++ mantissa).toNat < 2 ^ 63
  have high : exponent.toNat <<< 52 < 2 ^ 63 := by
    rw [Nat.shiftLeft_eq]
    have := exponent.isLt
    omega
  have low : mantissa.toNat < 2 ^ 63 := Nat.lt_trans mantissa.isLt (by decide)
  rw [BitVec.toNat_append, BitVec.toNat_append, BitVec.toNat_ofNat, Nat.zero_mod,
    Nat.zero_shiftLeft, Nat.zero_or]
  exact Nat.or_lt_two_pow high low

theorem toNat_pack_lt (h : Unsigned u) :
    (UnpackedFloat.pack Format.binary64 u).toNat < 2 ^ 63 := by
  cases u with
  | notANumber => exact toNat_packComponents_lt _ _
  | infinity sign =>
    obtain rfl : sign = .positive := h
    exact toNat_packComponents_lt _ _
  | zero sign =>
    obtain rfl : sign = .positive := h
    exact toNat_packComponents_lt _ _
  | finite sign mantissa exponent positive =>
    obtain rfl : sign = .positive := h
    delta UnpackedFloat.pack
    dsimp only
    split
    · exact toNat_packComponents_lt _ _
    · split <;> exact toNat_packComponents_lt _ _

theorem signBit_eq_false_iff : signBit x = false ↔ x.toBits.toNat < 2 ^ 63 := by
  rw [signBit, decide_eq_false_iff_not]
  exact Nat.not_le

theorem signBit_ofModel_pack (h : Unsigned u) : signBit (Float.ofModel (.pack u)) = false :=
  signBit_eq_false_iff.2 (toNat_pack_lt h)

theorem unsigned_of_signBit (h : signBit x = false) : Unsigned x.toModel.unpack :=
  unsigned_unpack (signBit_eq_false_iff.1 h)

/-! ## Operations -/

theorem unsigned_dite {p : Prop} [Decidable p] {yes : p → UnpackedFloat}
    {no : ¬p → UnpackedFloat} (hyes : ∀ h, Unsigned (yes h)) (hno : ∀ h, Unsigned (no h)) :
    Unsigned (if h : p then yes h else no h) := by
  by_cases h : p
  · rw [dif_pos h]
    exact hyes h
  · rw [dif_neg h]
    exact hno h

theorem unsigned_roundWithAccuracy (mantissa : Nat) (exponent : Int)
    (accuracy : UnpackedFloat.Accuracy) :
    Unsigned (UnpackedFloat.roundWithAccuracy Format.binary64 .positive mantissa
      exponent accuracy) := by
  delta UnpackedFloat.roundWithAccuracy
  exact unsigned_dite (fun _ => rfl) fun _ => rfl

theorem unsigned_mul (hu : Unsigned u) (hv : Unsigned v) :
    Unsigned (UnpackedFloat.mul Format.binary64 u v) := by
  cases u <;> cases v <;> first
    | exact trivial
    | (cases hu; cases hv; rfl)
    | (cases hu; cases hv; exact unsigned_roundWithAccuracy _ _ _)

theorem unsigned_div (hu : Unsigned u) (hv : Unsigned v) :
    Unsigned (UnpackedFloat.div Format.binary64 u v) := by
  cases u <;> cases v <;> first
    | exact trivial
    | (cases hu; cases hv; rfl)
    | (cases hu; cases hv; exact unsigned_roundWithAccuracy _ _ _)

theorem signBit_mul (hx : signBit x = false) (hy : signBit y = false) :
    signBit (x * y) = false :=
  signBit_ofModel_pack (unsigned_mul (unsigned_of_signBit hx) (unsigned_of_signBit hy))

theorem signBit_div (hx : signBit x = false) (hy : signBit y = false) :
    signBit (x / y) = false :=
  signBit_ofModel_pack (unsigned_div (unsigned_of_signBit hx) (unsigned_of_signBit hy))

theorem unsigned_ofNat (n : Nat) : Unsigned (UnpackedFloat.ofNat Format.binary64 n) := by
  delta UnpackedFloat.ofNat UnpackedFloat.ofInt UnpackedFloat.normalize
  split
  case h_1 below => exact absurd (Int.compare_eq_lt.1 below) (by omega)
  case h_2 => rfl
  case h_3 => exact unsigned_roundWithAccuracy _ _ _

theorem signBit_toFloat (n : UInt64) : signBit n.toFloat = false :=
  signBit_ofModel_pack (unsigned_ofNat n.toNat)

theorem unsigned_ofScientific (m : Nat) (e : Int) :
    Unsigned (UnpackedFloat.ofScientific Format.binary64 m e) := by
  delta UnpackedFloat.ofScientific
  refine unsigned_dite (fun _ => rfl) fun _ => ?_
  by_cases huge : e > 2 ^ Format.binary64.exponentBits
  · rw [if_pos huge]
    rfl
  · rw [if_neg huge]
    by_cases tiny : e < -(2 ^ Format.binary64.exponentBits + m.log2)
    · rw [if_pos tiny]
      rfl
    · rw [if_neg tiny]
      by_cases whole : 0 ≤ e
      · rw [if_pos whole]
        exact unsigned_mul rfl rfl
      · rw [if_neg whole]
        exact unsigned_div rfl rfl

theorem signBit_ofScientific (m : Nat) (negative : Bool) (e : Nat) :
    signBit (Float.ofScientific m negative e) = false := by
  have powers : ∀ power ∈ Float.exactlyRepresentablePowersOfTen, signBit power = false := by
    decide +kernel
  delta Float.ofScientific
  dsimp only
  split
  case isTrue h =>
    split
    · exact signBit_div (signBit_toFloat _) (powers _ (Array.getElem_mem _))
    · exact signBit_mul (signBit_toFloat _) (powers _ (Array.getElem_mem _))
  case isFalse => exact signBit_ofModel_pack (unsigned_ofScientific _ _)

/-! ## Reading -/

theorem signBit_nearestDouble (digits : List Char) (exponent : Int) :
    signBit (nearestDouble digits exponent) = false := by
  delta nearestDouble
  dsimp only
  split
  · decide +kernel
  · split
    · decide +kernel
    · exact signBit_ofScientific _ _ _

theorem signBit_of_readUnsigned? {text : List Char} (h : readUnsigned? text = some x) :
    signBit x = false := by
  rw [readUnsigned?] at h
  split at h
  · obtain rfl := Option.some.inj h
    decide +kernel
  · split at h
    · obtain rfl := Option.some.inj h
      decide +kernel
    · extract_lets whole afterWhole afterPoint fraction at h
      split at h
      · cases h
      · split at h
        · obtain rfl := Option.some.inj h
          exact signBit_nearestDouble _ _
        · cases h

/-- What starts with a digit is read as a number without a sign. -/
theorem signBit_of_readDouble? {c : Char} {text : List Char} (digit : c.isDigit = true)
    (h : readDouble? (c :: text) = some x) : signBit x = false := by
  have positive : takeSign (c :: text) = (false, c :: text) := by
    rw [takeSign.eq_def]
    split
    case h_1 same =>
      obtain ⟨rfl, -⟩ := List.cons.inj same
      cases digit
    case h_2 same =>
      obtain ⟨rfl, -⟩ := List.cons.inj same
      cases digit
    case h_3 => rfl
  rw [readDouble?, positive] at h
  obtain ⟨y, read, rfl⟩ := Option.map_eq_some_iff.1 h
  exact signBit_of_readUnsigned? read

end

end GuardedExpr
