import GuardedExpr.Proofs.Decimal.Interval
import GuardedExpr.Proofs.Decimal.Numeral
import GuardedExpr.Proofs.Value.Sign
import GuardedExpr.Proofs.Value.Zero
import GuardedExpr.Value.Basic

/-!
# Written numbers

A finite number without a sign is written as a numeral, and the numeral shows a number that
rounds to it. So two such numbers are not written alike.
-/

namespace GuardedExpr

open Lexeme NumberStyle
open Float.Model (UnpackedFloat Format)

namespace Value

variable {digits : List Char} {n : Nat} {lead : Int} {m : Magnitude} {x y : Float}

/-! ## Layouts -/

theorem isEmpty_all_digitsOf (n : Nat) :
    (!(digitsOf n).isEmpty && (digitsOf n).all Char.isDigit) = true := by
  obtain ⟨nonempty, digits⟩ := isDigits_digitsOf n
  rw [Bool.and_eq_true, Bool.not_eq_true', List.isEmpty_eq_false_iff, List.all_eq_true]
  exact ⟨nonempty, digits⟩

theorem readExponent?_minus (n : Nat) :
    readExponent? ('e' :: '-' :: digitsOf n) = some (-(n : Int)) := by
  show (if _ then some (-(digitsValue (digitsOf n) : Int)) else none) = _
  rw [if_pos (isEmpty_all_digitsOf n), digitsValue_digitsOf]

theorem readExponent?_plus (n : Nat) :
    readExponent? ('e' :: '+' :: digitsOf n) = some (n : Int) := by
  show (if _ then some (digitsValue (digitsOf n) : Int) else none) = _
  rw [if_pos (isEmpty_all_digitsOf n), digitsValue_digitsOf]

theorem isDigits_take (h : IsDigits digits) (n : Nat) : IsDigits (digits.take (n + 1)) := by
  obtain ⟨c, behind, rfl⟩ := List.exists_cons_of_ne_nil h.1
  exact ⟨List.cons_ne_nil c _, fun d member => h.2 d (List.mem_of_mem_take member)⟩

theorem isDigits_drop (h : IsDigits digits) (inside : n < digits.length) :
    IsDigits (digits.drop n) :=
  ⟨fun none => absurd (List.drop_eq_nil_iff.1 none) (Nat.not_le.2 inside),
    fun d member => h.2 d (List.mem_of_mem_drop member)⟩

theorem shows_positional (h : IsDigits digits) (lead : Int) :
    ShowsNumber (numberStyle.positional digits lead)
      (digitsValue digits * 10 ^ (lead + 1 - digits.length)) := by
  rw [positional]
  split
  case isTrue below =>
    have zero : IsDigits ['0'] :=
      ⟨List.cons_ne_nil _ _, List.forall_mem_singleton.2 (by decide)⟩
    have shown := shows_fraction zero (isDigits_zeros_append (-lead - 1).toNat h) .none rfl
    have value : digitsValue (['0'] ++ (List.replicate (-lead - 1).toNat '0' ++ digits)) =
        digitsValue digits :=
      digitsValue_replicate_append ((-lead - 1).toNat + 1) digits
    have point : (0 - (List.replicate (-lead - 1).toNat '0' ++ digits).length : Int) =
        lead + 1 - digits.length := by
      rw [List.length_append, List.length_replicate]
      omega
    rwa [List.append_nil, value, point] at shown
  case isFalse above =>
    extract_lets whole
    split
    case isTrue short =>
      have shown := shows_whole (isDigits_append_zeros (whole - digits.length) h) .none rfl
      have point : lead + 1 - digits.length = (whole - digits.length : Nat) := by omega
      have value : (digitsValue (digits ++ List.replicate (whole - digits.length) '0') : ℚ) =
          digitsValue digits * 10 ^ (lead + 1 - digits.length) := by
        rw [digitsValue_append_replicate, point, zpow_natCast]
        push_cast
        ring
      rwa [value, zpow_zero, mul_one] at shown
    case isFalse long =>
      have shown :=
        shows_fraction (isDigits_take h lead.toNat) (isDigits_drop h (Nat.not_le.1 long))
        .none rfl
      have point : (0 - (digits.drop whole).length : Int) = lead + 1 - digits.length := by
        rw [List.length_drop]
        omega
      rwa [List.append_nil, List.take_append_drop, point] at shown

/-- The mark and the exponent behind digits are read as that exponent. -/
theorem readExponent?_exponent (lead : Int) :
    ∃ sign, IsSign sign ∧
      (if lead < 0 then ['-'] else numberStyle.exponentPlus.toList) = sign ∧
      readExponent? ('e' :: (sign ++ digitsOf lead.natAbs)) = some lead := by
  by_cases below : lead < 0
  · refine ⟨['-'], .minus, if_pos below, (readExponent?_minus _).trans (congrArg some ?_)⟩
    omega
  · refine ⟨['+'], .plus, if_neg below, (readExponent?_plus _).trans (congrArg some ?_)⟩
    omega

theorem shows_scientific (h : IsDigits digits) (lead : Int) :
    ShowsNumber (numberStyle.scientific digits lead)
      (digitsValue digits * 10 ^ (lead + 1 - digits.length)) := by
  obtain ⟨sign, hsign, written, read⟩ := readExponent?_exponent lead
  have power : IsExponent ('e' :: (sign ++ digitsOf lead.natAbs)) :=
    .some (.inl rfl) hsign (isDigits_digitsOf _)
  have positive : 0 < digits.length := List.length_pos_iff.2 h.1
  rw [scientific, written, List.append_assoc, List.cons_append]
  split
  case isTrue several =>
    have shown := shows_fraction (isDigits_take h 0) (isDigits_drop h several) power read
    have point : lead - (digits.drop 1).length = lead + 1 - digits.length := by
      rw [List.length_drop]
      omega
    rwa [List.take_append_drop, point] at shown
  case isFalse single =>
    have shown := shows_whole h power read
    have whole : digits.take 1 = digits := List.take_of_length_le (Nat.not_lt.1 single)
    have point : lead + 1 - digits.length = lead := by omega
    rwa [whole, List.append_nil, point]

/-- The fewest digits of a decimal show it, with its leading digit in place. -/
theorem value_stripZeros {d : Decimal} (positive : 0 < d.digits) {all fewest : List Char}
    (hall : digitsOf d.digits = all) (hfewest : stripZeros all = fewest) :
    IsDigits fewest ∧
      (digitsValue fewest * 10 ^ (d.exponent + all.length - 1 + 1 - fewest.length) : ℚ) =
        d.value := by
  obtain ⟨zeros, split⟩ := eq_stripZeros_append all
  have value := digitsValue_digitsOf d.digits
  obtain ⟨-, digits⟩ := isDigits_digitsOf d.digits
  rw [hall] at value digits
  rw [hfewest] at split
  rw [split, digitsValue_append_replicate] at value
  constructor
  · refine ⟨?_, fun c member => digits c ?_⟩
    · rintro rfl
      rw [show digitsValue [] = 0 from rfl, Nat.mul_zero] at value
      exact positive.ne value
    · rw [split]
      exact List.mem_append_left _ member
  · have place : d.exponent + all.length - 1 + 1 - fewest.length = zeros + d.exponent := by
      rw [split, List.length_append, List.length_replicate]
      omega
    rw [place, Decimal.value, ← value, zpow_add₀ (by decide), zpow_natCast]
    push_cast
    ring

/-! ## Numbers -/

theorem shows_magnitude (positive : 0 < m.mantissa) :
    ∃ v, m.Covers v ∧ ShowsNumber (numberStyle.magnitude m) v := by
  have covered := Magnitude.covers_shortest positive
  have nonzero : 0 < m.shortest.digits := by
    have value := covered.pos positive
    refine Nat.pos_of_ne_zero fun zero => ?_
    rw [Decimal.value, zero, Nat.cast_zero, zero_mul] at value
    exact value.false
  obtain ⟨digits, value⟩ := value_stripZeros nonzero rfl rfl
  rw [magnitude]
  split
  · split
    case h_1 n _ whole =>
      have shown := shows_whole (isDigits_digitsOf n) .none rfl
      rw [digitsValue_digitsOf, Magnitude.value_of_whole? whole, zpow_zero, mul_one] at shown
      exact ⟨m.value, m.covers_value, shown⟩
    case h_2 => exact ⟨_, covered, value ▸ shows_positional digits _⟩
  · exact ⟨_, covered, value ▸ shows_scientific digits _⟩

/-- The exponent of an infinity has all its bits on. -/
theorem isInfinite_of_isFinite (h : x.isFinite = true) : isInfinite x = false := by
  by_contra infinite
  rw [Bool.not_eq_false, isInfinite, beq_iff_eq] at infinite
  have exponent :
      @UnpackedFloat.unpackExponent Format.binary64 x.toBits.toBitVec = -1#_ := by
    apply BitVec.eq_of_toNat_eq
    simp only [UnpackedFloat.unpackExponent, BitVec.toNat_cast, BitVec.extractLsb_toNat]
    show x.toBits.toNat >>> 52 % 2 ^ 11 = 2047
    have bits : x.toBits.toNat % 2 ^ 63 = 0x7FF0000000000000 := infinite
    rw [Nat.shiftRight_eq_div_pow]
    omega
  have special :
      (UnpackedFloat.unpack Format.binary64 x.toBits.toBitVec).isFinite = false := by
    delta UnpackedFloat.unpack
    dsimp only
    rw [if_pos exponent]
    split <;> rfl
  exact Bool.false_ne_true (special.symm.trans h)

theorem isNaN_of_isFinite (h : x.isFinite = true) : x.isNaN = false := by
  have finite : x.toModel.unpack.isFinite = true := h
  show x.toModel.unpack.isNaN = false
  cases unpacked : x.toModel.unpack with
  | notANumber =>
    rw [unpacked] at finite
    cases finite
  | _ => rfl

/-- A finite number without a sign is written as a number that rounds to it. -/
theorem shows_write (finite : x.isFinite = true) (unsigned : signBit x = false) :
    ∃ v, (Magnitude.nth x.toBits.toNat).Covers v ∧
      ShowsNumber (numberStyle.write x).toList v := by
  have bits := Magnitude.ofBits_eq_nth (signBit_eq_false_iff.1 unsigned)
  have zero : ShowsNumber ['0'] 0 := by
    have shown := shows_whole (isDigits_digitsOf 0) .none rfl
    rwa [digitsValue_digitsOf, Nat.cast_zero, zero_mul] at shown
  rw [write, isNaN_of_isFinite finite, isInfinite_of_isFinite finite, unsigned, bits]
  generalize Magnitude.nth x.toBits.toNat = m
  by_cases none : m.mantissa = 0
  · refine ⟨0, ?_, ?_⟩
    · have value : m.value = 0 := by
        rw [Magnitude.value, none, Nat.cast_zero, zero_mul]
      exact value ▸ m.covers_value
    · simp only [Bool.false_eq_true, if_false, none, if_true]
      exact zero
  · obtain ⟨v, covers, shown⟩ := shows_magnitude (Nat.pos_of_ne_zero none)
    refine ⟨v, covers, ?_⟩
    simpa [none] using shown

/-- Finite numbers without a sign are told apart by what is written of them. -/
theorem write_injective (hx : x.isFinite = true) (hy : y.isFinite = true)
    (unsigned : signBit x = false) (unsigned' : signBit y = false)
    (same : numberStyle.write x = numberStyle.write y) : x = y := by
  obtain ⟨v, covers, -, shown⟩ := shows_write hx unsigned
  obtain ⟨w, covers', -, shown'⟩ := shows_write hy unsigned'
  rw [same, shown'] at shown
  subst shown
  exact Float.toBits_inj.1 (UInt64.toNat_inj.1 (covers.unique covers'))

end Value

end GuardedExpr
