import GuardedExpr.Decimal.Shortest

/-!
# Laying out a number

A `NumberStyle` holds the decisions that a written number shows. The digits are the fewest
that read back, apart from whole numbers in a style that writes those out in full.
-/

namespace GuardedExpr

structure NumberStyle where
  /-- The smallest exponent of the leading digit that is written positionally. -/
  plainFrom : Int
  /-- The smallest exponent above `plainFrom` that is written with an exponent again. -/
  plainBelow : Int
  /-- Whole numbers in the positional range show all their digits, not only the fewest. -/
  wholeInFull : Bool
  /-- What a positional whole number ends in. -/
  wholeSuffix : String
  /-- What stands between the mark `e` and an exponent that is not negative. -/
  exponentPlus : String
  /-- How zero with a set sign bit is written, and zero without. -/
  negativeZero : String
  zero : String
  notANumber : String
  infinity : String

namespace NumberStyle

/-- The digits of `n`, leading digit first. -/
def digitsOf (n : Nat) : List Char :=
  Nat.toDigits 10 n

def stripZeros (digits : List Char) : List Char :=
  (digits.reverse.dropWhile (· == '0')).reverse

/-- The digits in positional notation when the leading one stands for `10 ^ lead`. -/
def positional (style : NumberStyle) (digits : List Char) (lead : Int) : List Char :=
  if lead < 0 then
    '0' :: '.' :: List.replicate (-lead - 1).toNat '0' ++ digits
  else
    let whole := lead.toNat + 1
    if digits.length ≤ whole then
      digits ++ List.replicate (whole - digits.length) '0' ++ style.wholeSuffix.toList
    else digits.take whole ++ '.' :: digits.drop whole

/-- The digits with one of them before the point and an exponent. -/
def scientific (style : NumberStyle) (digits : List Char) (lead : Int) : List Char :=
  let point := if 1 < digits.length then '.' :: digits.drop 1 else []
  let sign := if lead < 0 then ['-'] else style.exponentPlus.toList
  digits.take 1 ++ point ++ 'e' :: sign ++ digitsOf lead.natAbs

/-- A finite value other than zero, without its sign. -/
def magnitude (style : NumberStyle) (x : Magnitude) : List Char :=
  let d := x.shortest
  let digits := stripZeros (digitsOf d.digits)
  let lead := d.exponent + (digitsOf d.digits).length - 1
  if style.plainFrom ≤ lead ∧ lead < style.plainBelow then
    match style.wholeInFull, x.whole? with
    | true, some n => digitsOf n ++ style.wholeSuffix.toList
    | _, _ => style.positional digits lead
  else style.scientific digits lead

def write (style : NumberStyle) (x : Float) : String :=
  if x.isNaN then style.notANumber
  else
    let sign := if signBit x then "-" else ""
    if isInfinite x then sign ++ style.infinity
    else
      let m := Magnitude.ofBits x.toBits
      if m.mantissa = 0 then if signBit x then style.negativeZero else style.zero
      else sign ++ String.ofList (style.magnitude m)

end NumberStyle

end GuardedExpr
