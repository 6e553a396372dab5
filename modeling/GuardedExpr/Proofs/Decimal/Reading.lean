import GuardedExpr.Proofs.Decimal.Numeral
import GuardedExpr.Proofs.Token.Pattern
import GuardedExpr.Proofs.Token.Separator
import GuardedExpr.Value.Comparison
import Mathlib

/-!
# Reading a numeral

Every numeral of the lexer is read as a number, never as NaN: what is read is a quotient or
a product of two finite numbers, or it is too large or too small for that. A text with the
numeral and white space around it coerces to the same number.
-/

namespace GuardedExpr

open Lexeme
open Float.Model (UnpackedFloat Format)

/-! ## What is not NaN -/

section

variable {u v : UnpackedFloat} {x y : Float}

theorem pack_ne_packedNaN (h : u ≠ .notANumber) :
    UnpackedFloat.pack Format.binary64 u ≠ UnpackedFloat.packedNaN Format.binary64 := by
  intro same
  have exponent := congrArg (@UnpackedFloat.unpackExponent Format.binary64) same
  have mantissa := congrArg (@UnpackedFloat.unpackMantissa Format.binary64) same
  rw [UnpackedFloat.packedNaN, UnpackedFloat.unpackExponent_packComponents] at exponent
  rw [UnpackedFloat.packedNaN, UnpackedFloat.unpackMantissa_packComponents] at mantissa
  have infinite : ∀ sign, @UnpackedFloat.unpackMantissa Format.binary64
      (UnpackedFloat.packedInfinity Format.binary64 sign) ≠ 1#52 <<< 51 := by
    intro sign
    rw [UnpackedFloat.packedInfinity, UnpackedFloat.unpackMantissa_packComponents]
    decide
  cases u with
  | notANumber => exact h rfl
  | infinity sign => exact infinite sign mantissa
  | zero sign =>
    rw [UnpackedFloat.pack, UnpackedFloat.packedZero,
      UnpackedFloat.unpackExponent_packComponents] at exponent
    exact absurd exponent (by decide)
  | finite sign m e positive =>
    rw [UnpackedFloat.pack] at exponent mantissa
    dsimp only at exponent mantissa
    generalize (e + Format.binary64.exponentBias +
      Format.binary64.mantissaBitsWithoutImplicit).toNat = field
      at exponent mantissa
    by_cases large : 2 ^ Format.binary64.exponentBits ≤ field + 1
    · rw [if_pos large] at mantissa
      exact infinite sign mantissa
    · rw [if_neg large] at exponent
      have small : field + 1 < 2048 := Nat.not_le.1 large
      split at exponent
      · rw [UnpackedFloat.unpackExponent_packComponents] at exponent
        have all : field % 2048 = 2047 := congrArg BitVec.toNat exponent
        omega
      · rw [UnpackedFloat.unpackExponent_packComponents] at exponent
        exact absurd exponent (by decide)

/-- What is packed is NaN only if it was before. -/
theorem isNaN_ofModel_pack (h : u ≠ .notANumber) :
    (Float.ofModel (.pack u)).isNaN = false := by
  have packed := pack_ne_packedNaN h
  rw [ne_eq, ← UnpackedFloat.unpack_eq_notANumber_iff_of_valid UnpackedFloat.valid_pack,
    ← UnpackedFloat.isNaN_iff, Bool.not_eq_true] at packed
  exact packed

theorem ne_notANumber_of_isNaN (h : x.isNaN = false) : x.toModel.unpack ≠ .notANumber := by
  intro nan
  have found : x.toModel.unpack.isNaN = false := h
  rw [nan] at found
  cases found

/-- The number is neither zero nor infinite, so a product or a quotient with
it is NaN only for NaN. -/
def isFiniteNonzero : UnpackedFloat → Bool
  | .finite .. => true
  | _ => false

theorem roundWithAccuracy_ne_notANumber (sign : UnpackedFloat.Sign) (mantissa : Nat)
    (exponent : Int) (accuracy : UnpackedFloat.Accuracy) :
    UnpackedFloat.roundWithAccuracy Format.binary64 sign mantissa exponent accuracy ≠
      .notANumber := by
  rw [UnpackedFloat.roundWithAccuracy]
  dsimp only
  split <;> nofun

theorem mul_ne_notANumber (hu : u ≠ .notANumber) (hv : isFiniteNonzero v = true) :
    UnpackedFloat.mul Format.binary64 u v ≠ .notANumber := by
  cases v with
  | finite =>
    cases u with
    | notANumber => exact absurd rfl hu
    | finite => exact roundWithAccuracy_ne_notANumber _ _ _ _
    | _ => nofun
  | _ => cases hv

theorem div_ne_notANumber (hu : u ≠ .notANumber) (hv : isFiniteNonzero v = true) :
    UnpackedFloat.div Format.binary64 u v ≠ .notANumber := by
  cases v with
  | finite =>
    cases u with
    | notANumber => exact absurd rfl hu
    | finite => exact roundWithAccuracy_ne_notANumber _ _ _ _
    | _ => nofun
  | _ => cases hv

theorem isNaN_toFloat (n : UInt64) : n.toFloat.isNaN = false := by
  refine isNaN_ofModel_pack ?_
  show UnpackedFloat.normalize Format.binary64 (n.toNat : Int) 0 .positive ≠ .notANumber
  rw [UnpackedFloat.normalize]
  split
  · exact roundWithAccuracy_ne_notANumber _ _ _ _
  · nofun
  · exact roundWithAccuracy_ne_notANumber _ _ _ _

theorem ofScientific_ne_notANumber (m : Nat) (e : Int) :
    UnpackedFloat.ofScientific Format.binary64 m e ≠ .notANumber := by
  rw [UnpackedFloat.ofScientific]
  split
  · nofun
  · split
    · nofun
    · split
      · nofun
      · split
        · exact mul_ne_notANumber nofun rfl
        · exact div_ne_notANumber nofun rfl

theorem isNaN_ofScientific (m : Nat) (negative : Bool) (e : Nat) :
    (Float.ofScientific m negative e).isNaN = false := by
  have powers : ∀ power ∈ Float.exactlyRepresentablePowersOfTen,
      isFiniteNonzero power.toModel.unpack = true := by
    decide +kernel
  have whole := ne_notANumber_of_isNaN (isNaN_toFloat m.toUInt64)
  delta Float.ofScientific
  dsimp only
  split
  case isTrue h =>
    split
    · exact isNaN_ofModel_pack (div_ne_notANumber whole (powers _ (Array.getElem_mem _)))
    · exact isNaN_ofModel_pack (mul_ne_notANumber whole (powers _ (Array.getElem_mem _)))
  case isFalse => exact isNaN_ofModel_pack (ofScientific_ne_notANumber _ _)

theorem isNaN_nearestDouble (digits : List Char) (exponent : Int) :
    (nearestDouble digits exponent).isNaN = false := by
  delta nearestDouble
  dsimp only
  split
  · decide +kernel
  · split
    · decide +kernel
    · exact isNaN_ofScientific _ _ _

end

/-! ## Numerals are read -/

section

variable {text whole part power digits : List Char}

/-- What starts with a digit has no sign. -/
theorem takeSign_of_isDigit (h : ∀ c ∈ text.head?, c.isDigit = true) :
    takeSign text = (false, text) := by
  rw [takeSign.eq_def]
  split
  case h_1 => exact absurd (h '-' rfl) (by decide)
  case h_2 => exact absurd (h '+' rfl) (by decide)
  case h_3 => rfl

theorem head?_append_of_isDigits (h : IsDigits digits) (more : List Char) :
    ∀ c ∈ (digits ++ more).head?, c.isDigit = true := by
  obtain ⟨d, further, rfl⟩ := List.exists_cons_of_ne_nil h.1
  rintro c same
  obtain rfl := Option.some.inj same
  exact h.2 d List.mem_cons_self

theorem exists_readExponent? (h : IsExponent power) :
    ∃ exponent, readExponent? power = some exponent := by
  cases h with
  | none => exact ⟨0, rfl⟩
  | @some mark sign digits hmark hsign hdigits =>
    have marked : (mark == 'e' || mark == 'E') = true := by
      rcases hmark with rfl | rfl <;> rfl
    have signed : ∃ negative, takeSign (sign ++ digits) = (negative, digits) := by
      cases hsign with
      | none =>
        have first := head?_append_of_isDigits hdigits []
        rw [List.append_nil] at first
        exact ⟨false, takeSign_of_isDigit first⟩
      | plus => exact ⟨false, rfl⟩
      | minus => exact ⟨true, rfl⟩
    obtain ⟨negative, taken⟩ := signed
    have all : (!digits.isEmpty && digits.all Char.isDigit) = true := by
      rw [Bool.and_eq_true, Bool.not_eq_true', List.isEmpty_eq_false_iff, List.all_eq_true]
      exact hdigits
    rw [readExponent?, if_pos marked, taken]
    exact ⟨_, if_pos all⟩

/-- The words for infinities and NaN start with letters. -/
theorem map_toLower_ne (h : ∀ c ∈ text.head?, c.isDigit = true) :
    ∀ word ∈ ["inf", "infinity", "nan"], text.map Char.toLower ≠ word.toList := by
  have lettered : ∀ word ∈ ["inf", "infinity", "nan"],
      word.toList.head?.any Char.isDigit = false ∧ word.toList ≠ [] := by
    decide
  intro word member same
  obtain ⟨letter, nonempty⟩ := lettered word member
  rw [← same] at letter nonempty
  obtain ⟨c, rest, rfl⟩ := List.exists_cons_of_ne_nil (List.map_eq_nil_iff.not.1 nonempty)
  have digit : c.isDigit = true := h c rfl
  have low := toNat_of_isDigit digit
  have unchanged : c.toLower = c := by
    refine toLower_eq_self ?_
    rw [← Bool.not_eq_true]
    intro upper
    have high := toNat_of_isUpper upper
    omega
  rw [List.map_cons, List.head?_cons, Option.any_some, unchanged, digit] at letter
  cases letter

/-- The parts of a numeral are found again. -/
theorem readUnsigned?_of_parts (hwhole : IsDigits whole) (hpart : IsFraction part)
    (hpower : IsExponent power) {exponent : Int}
    (read : readExponent? power = some exponent) :
    readUnsigned? (whole ++ part ++ power) =
      some (nearestDouble (whole ++ part.drop 1) (exponent - (part.drop 1).length)) := by
  have first := head?_append_of_isDigits hwhole (part ++ power)
  have stop := not_isDigit_head?_append hpart hpower
  have inf := map_toLower_ne first "inf" (by simp)
  have infinity := map_toLower_ne first "infinity" (by simp)
  have nan := map_toLower_ne first "nan" (by simp)
  have nonempty : whole.isEmpty = false := List.isEmpty_eq_false_iff.2 hwhole.1
  rw [List.append_assoc]
  simp only [readUnsigned?, inf, infinity, nan, takeWhile_run hwhole.2 stop,
    dropWhile_run hwhole.2 stop, nonempty, decide_false, Bool.or_self, Bool.false_and,
    Bool.false_eq_true, ↓reduceIte]
  cases hpart with
  | none =>
    have noPoint : power.head? ≠ some '.' := by
      cases hpower with
      | none => nofun
      | some hmark => rcases hmark with rfl | rfl <;> simp
    simp only [List.nil_append, noPoint, ↓reduceIte, List.length_nil, List.drop_zero,
      read, List.drop_nil]
  | @some digits hdigits =>
    have run := takeWhile_run hdigits.2 (not_isDigit_head?_exponent hpower)
    simp only [List.cons_append, List.head?_cons, ↓reduceIte, List.drop_one,
      List.tail_cons, run, List.drop_left, read]

/-- Every numeral is read, and not as NaN. -/
theorem exists_readDouble? (h : IsNumeral text) :
    ∃ x, readDouble? text = some x ∧ x.isNaN = false := by
  obtain ⟨whole, part, power, hwhole, hpart, hpower, rfl⟩ := h
  obtain ⟨exponent, read⟩ := exists_readExponent? hpower
  have first := head?_append_of_isDigits hwhole (part ++ power)
  rw [← List.append_assoc] at first
  refine
    ⟨_, ?_, isNaN_nearestDouble (whole ++ part.drop 1) (exponent - (part.drop 1).length)⟩
  rw [readDouble?, takeSign_of_isDigit first]
  dsimp only
  rw [readUnsigned?_of_parts hwhole hpart hpower read]
  rfl

/-! ## Texts that are numerals -/

/-- Of a text with white space around it only the text is left. -/
theorem trim_padded {before after : List Char} (hbefore : ∀ c ∈ before, isBlank c = true)
    (hafter : ∀ c ∈ after, isBlank c = true) (nonempty : text ≠ [])
    (hfirst : ∀ c ∈ text.head?, isBlank c = false)
    (hlast : ∀ c ∈ text.getLast?, isBlank c = false) :
    trim (before ++ text ++ after) = text := by
  have front : ∀ c ∈ (text ++ after).head?, isBlank c = false := by
    rwa [List.head?_append_of_ne_nil _ nonempty]
  have back : ∀ c ∈ text.reverse.head?, isBlank c = false := by
    rwa [List.head?_reverse]
  have blanks : ∀ c ∈ after.reverse, isBlank c = true := fun c member =>
    hafter c (List.mem_reverse.1 member)
  rw [trim, List.append_assoc, dropWhile_isBlank hbefore front, List.reverse_append,
    dropWhile_isBlank blanks back, List.reverse_reverse]

/-- The characters that a numeral has are those that a text may have to
be taken for a number. -/
theorem isNumeral_all (h : IsNumeral text) :
    text.all (fun c => c.isDigit || "+-.eE".toList.contains c) = true := by
  obtain ⟨whole, part, power, hwhole, hpart, hpower, rfl⟩ := h
  have run : ∀ {digits}, IsDigits digits →
      digits.all (fun c => c.isDigit || "+-.eE".toList.contains c) = true := by
    intro digits h
    refine List.all_eq_true.2 fun c member => ?_
    rw [h.2 c member, Bool.true_or]
  have fraction : part.all (fun c => c.isDigit || "+-.eE".toList.contains c) = true := by
    cases hpart with
    | none => rfl
    | some hdigits =>
      rw [List.all_cons, run hdigits]
      rfl
  have exponent : power.all (fun c => c.isDigit || "+-.eE".toList.contains c) = true := by
    cases hpower with
    | none => rfl
    | some hmark hsign hdigits =>
      rw [List.all_cons, List.all_append, run hdigits]
      rcases hmark with rfl | rfl <;> cases hsign <;> rfl
  rw [List.all_append, List.all_append, run hwhole, fraction, exponent]
  rfl

/-- A text with a numeral in it, and white space around that, coerces to what
the numeral is read as. -/
theorem numberOfText_padded {before after : List Char} {numeral : String} {x : Float}
    (h : IsNumeral numeral.toList) (read : readDouble? numeral.toList = some x)
    (hbefore : ∀ c ∈ before, isBlank c = true) (hafter : ∀ c ∈ after, isBlank c = true) :
    Value.numberOfText (String.ofList before ++ numeral ++ String.ofList after) = x := by
  have solid : ∀ c ∈ numeral.toList, isBlank c = false := by
    intro c member
    rw [← Bool.not_eq_true]
    exact fun blank => Bool.false_ne_true
      ((solid_of_isNumeral h c member).symm.trans (isSeparator_of_isBlank blank))
  have trimmed : trim (before ++ numeral.toList ++ after) = numeral.toList :=
    trim_padded hbefore hafter h.ne_nil
      (fun c first => solid c (List.mem_of_mem_head? first))
      fun c last => solid c (List.mem_of_getLast? last)
  have nonempty : numeral.toList.isEmpty = false := List.isEmpty_eq_false_iff.2 h.ne_nil
  simp only [Value.numberOfText, String.toList_append, String.toList_ofList, trimmed,
    nonempty, isNumeral_all h, read, Bool.false_eq_true, ↓reduceIte, Option.getD_some]

end

end GuardedExpr
