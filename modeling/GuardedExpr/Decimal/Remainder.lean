import GuardedExpr.Decimal.Magnitude

/-!
# The remainder of two doubles

The remainder of a division whose quotient is cut towards zero. It is always a double, so
it is computed exactly: both magnitudes are brought to one exponent, and the remainder of
the two natural numbers is turned back into bits with the sign of the dividend.
-/

namespace GuardedExpr

/-- The remainder of two magnitudes, in units of `2` to the smaller of their exponents. -/
def Magnitude.remainder (x y : Magnitude) : Nat × Int :=
  let unit := min x.exponent y.exponent
  ((x.mantissa * Nat.pow 2 (x.exponent - unit).toNat) %
    (y.mantissa * Nat.pow 2 (y.exponent - unit).toNat), unit)

/-- What is left of `x` after taking away `y` as often as it goes, with the sign of `x`. -/
def remainder (x y : Float) : Float :=
  if x.isNaN || y.isNaN || isInfinite x || y == 0.0 then notANumber
  else if isInfinite y then x
  else
    let (rest, unit) := (Magnitude.ofBits x.toBits).remainder (Magnitude.ofBits y.toBits)
    let size := if rest = 0 then 0 else Magnitude.toBits rest unit
    Float.ofBits (if signBit x then size + 0x8000000000000000 else size)

end GuardedExpr
