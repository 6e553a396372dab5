import GuardedExpr.Decimal.Numeral
import GuardedExpr.Decimal.Style
import GuardedExpr.Proofs.Token.Longest
import Mathlib.Algebra.Order.Field.Power
import Mathlib.Tactic.Ring

/-!
# The number that a numeral shows

A numeral shows a rational number: that of its digits, with the point moved by its
exponent. Digits that are laid out with their leading one at some place show the
same number in every layout.
-/

namespace GuardedExpr

open Lexeme

/-- The number that a numeral shows. -/
def numeralValue (text : List Char) : ℚ :=
  let whole := text.takeWhile Char.isDigit
  let afterWhole := text.dropWhile Char.isDigit
  let part := fraction afterWhole
  let power := (readExponent? (afterWhole.drop part.length)).getD 0
  digitsValue (whole ++ part.drop 1) * 10 ^ (power - (part.drop 1).length)

/-- The text is a numeral that shows the number. -/
def ShowsNumber (text : List Char) (v : ℚ) : Prop :=
  IsNumeral text ∧ numeralValue text = v

section

variable {whole part power digits more : List Char} {v : ℚ} {lead : Int} {n : Nat}

/-! ## The parts of a numeral -/

theorem fraction_append (hpart : IsFraction part) (hpower : IsExponent power) :
    fraction (part ++ power) = part := by
  cases hpart with
  | none =>
    cases hpower with
    | none => rfl
    | some hmark => rcases hmark with rfl | rfl <;> rfl
  | some h =>
    have first := h.any_head? (List.prefix_append _ power)
    have run := takeWhile_run h.2 (not_isDigit_head?_exponent hpower)
    rw [List.cons_append, fraction, if_pos first, run]

/-- A numeral of these parts shows what its digits are, with the point moved. -/
theorem shows_append (hwhole : IsDigits whole) (hpart : IsFraction part)
    (hpower : IsExponent power) {exponent : Int}
    (read : readExponent? power = some exponent) :
    ShowsNumber (whole ++ part ++ power)
      (digitsValue (whole ++ part.drop 1) * 10 ^ (exponent - (part.drop 1).length)) := by
  refine ⟨⟨whole, part, power, hwhole, hpart, hpower, rfl⟩, ?_⟩
  have stop := not_isDigit_head?_append hpart hpower
  rw [numeralValue, List.append_assoc, takeWhile_run hwhole.2 stop,
    dropWhile_run hwhole.2 stop, fraction_append hpart hpower, List.drop_left, read]
  rfl

theorem shows_whole (hwhole : IsDigits whole) (hpower : IsExponent power) {exponent : Int}
    (read : readExponent? power = some exponent) :
    ShowsNumber (whole ++ power) (digitsValue whole * 10 ^ exponent) := by
  have shown := shows_append hwhole .none hpower read
  rwa [List.drop_nil, List.append_nil, List.length_nil, Nat.cast_zero, sub_zero] at shown

theorem shows_fraction (hwhole : IsDigits whole) (hdigits : IsDigits digits)
    (hpower : IsExponent power) {exponent : Int}
    (read : readExponent? power = some exponent) :
    ShowsNumber (whole ++ '.' :: digits ++ power)
      (digitsValue (whole ++ digits) * 10 ^ (exponent - digits.length)) :=
  shows_append hwhole (.some hdigits) hpower read

/-! ## Digits -/

theorem digitsValue_append (digits more : List Char) :
    digitsValue (digits ++ more) = 10 ^ more.length * digitsValue digits +
      digitsValue more := by
  show Nat.ofDigitChars 10 (digits ++ more) 0 = _
  rw [Nat.ofDigitChars_append, Nat.ofDigitChars_eq_ofDigitChars_zero]
  rfl

theorem digitsValue_replicate_zero (n : Nat) : digitsValue (List.replicate n '0') = 0 := by
  show Nat.ofDigitChars 10 (List.replicate n '0') 0 = _
  rw [Nat.ofDigitChars_replicate_zero, Nat.mul_zero]

theorem digitsValue_replicate_append (n : Nat) (digits : List Char) :
    digitsValue (List.replicate n '0' ++ digits) = digitsValue digits := by
  rw [digitsValue_append, digitsValue_replicate_zero, Nat.mul_zero, Nat.zero_add]

theorem digitsValue_append_replicate (digits : List Char) (n : Nat) :
    digitsValue (digits ++ List.replicate n '0') = 10 ^ n * digitsValue digits := by
  rw [digitsValue_append, digitsValue_replicate_zero, List.length_replicate, Nat.add_zero]

theorem digitsValue_digitsOf (n : Nat) : digitsValue (NumberStyle.digitsOf n) = n :=
  Nat.ofDigitChars_toDigits (by decide) (by decide)

theorem isDigits_zeros_append (n : Nat) (h : IsDigits digits) :
    IsDigits (List.replicate n '0' ++ digits) := by
  refine ⟨List.append_ne_nil_of_right_ne_nil _ h.1, List.forall_mem_append.2 ⟨?_, h.2⟩⟩
  intro c member
  rw [List.eq_of_mem_replicate member]
  decide

theorem isDigits_append_zeros (n : Nat) (h : IsDigits digits) :
    IsDigits (digits ++ List.replicate n '0') := by
  refine ⟨List.append_ne_nil_of_left_ne_nil h.1 _, List.forall_mem_append.2 ⟨h.2, ?_⟩⟩
  intro c member
  rw [List.eq_of_mem_replicate member]
  decide

theorem isDigits_digitsOf (n : Nat) : IsDigits (NumberStyle.digitsOf n) :=
  ⟨Nat.toDigits_ne_nil, fun _ => Nat.isDigit_of_mem_toDigits (by decide) (by decide)⟩

theorem eq_stripZeros_append (digits : List Char) :
    ∃ n, digits = NumberStyle.stripZeros digits ++ List.replicate n '0' := by
  have zeros : (digits.reverse.takeWhile (· == '0')) =
      List.replicate (digits.reverse.takeWhile (· == '0')).length '0' := by
    refine List.eq_replicate_iff.2 ⟨rfl, fun c member => ?_⟩
    exact beq_iff_eq.1 (List.all_eq_true.1 List.all_takeWhile c member)
  refine ⟨(digits.reverse.takeWhile (· == '0')).length, ?_⟩
  rw [NumberStyle.stripZeros, ← List.reverse_replicate, ← zeros, ← List.reverse_append,
    List.takeWhile_append_dropWhile, List.reverse_reverse]

end

end GuardedExpr
