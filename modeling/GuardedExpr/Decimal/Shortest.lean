import GuardedExpr.Decimal.Magnitude

/-!
# The fewest digits that read back

The decimals that round to a double form an interval, with its ends included exactly when
the mantissa is even. `Magnitude.shortest` finds the decimal of that interval with the
fewest digits, of those the one closest to the value, and on an exact tie the larger one.
It tries one digit, two digits and so on; with `n` digits the only candidates are the two
neighbours of the value on the grid of that many digits.
-/

namespace GuardedExpr

/-- The value `digits * 10 ^ exponent`. -/
structure Decimal where
  digits : Nat
  exponent : Int
deriving DecidableEq, Repr

/-- The order of `a * 10 ^ i` and `b * 2 ^ j`. -/
def compareScaled (a : Nat) (i : Int) (b : Nat) (j : Int) : Ordering :=
  compare (a * Nat.pow 10 i.toNat * Nat.pow 2 (-j).toNat)
    (b * Nat.pow 2 j.toNat * Nat.pow 10 (-i).toNat)

namespace Magnitude

/-- Whether the decimal lies among the reals that round to this value. -/
def readsBack (x : Magnitude) (d : Decimal) : Bool :=
  let low := if x.narrowBelow then 4 * x.mantissa - 1 else 4 * x.mantissa - 2
  let high := 4 * x.mantissa + 2
  let ends := x.mantissa % 2 = 0
  let atLow := compareScaled d.digits d.exponent low (x.exponent - 2)
  let atHigh := compareScaled d.digits d.exponent high (x.exponent - 2)
  (atLow = .gt || (ends && atLow = .eq)) && (atHigh = .lt || (ends && atHigh = .eq))

/-- The least power of ten above the value, found from an estimate that is at most a few
steps too small. -/
def scale (x : Magnitude) : Int :=
  let bits := x.exponent + x.mantissa.log2
  let estimate := bits * 1233 / 4096 - 1
  go 4 estimate
where
  /-- Steps up from `k` until the power of ten exceeds the value. -/
  go : Nat → Int → Int
    | 0, k => k
    | steps + 1, k =>
      if compareScaled 1 k x.mantissa x.exponent = .gt then k else go steps (k + 1)

/-- The whole part of the value in units of `10 ^ grid`. -/
def floorAt (x : Magnitude) (grid : Int) : Nat :=
  (x.mantissa * Nat.pow 2 x.exponent.toNat * Nat.pow 10 (-grid).toNat) /
    (Nat.pow 2 (-x.exponent).toNat * Nat.pow 10 grid.toNat)

/-- The neighbour of the value on the grid of units `10 ^ grid` that reads back, if one
does. Of two the closer, and on an exact tie the upper. -/
def onGrid? (x : Magnitude) (grid : Int) : Option Decimal :=
  let below : Decimal := ⟨x.floorAt grid, grid⟩
  let above : Decimal := ⟨below.digits + 1, grid⟩
  match x.readsBack below, x.readsBack above with
  | true, true =>
    -- Twice the value against the sum of the two neighbours.
    if compareScaled (below.digits + above.digits) grid (2 * x.mantissa) x.exponent = .gt
    then some below else some above
  | true, false => some below
  | false, true => some above
  | false, false => none

def exact (x : Magnitude) : Decimal :=
  if 0 ≤ x.exponent then ⟨x.mantissa * Nat.pow 2 x.exponent.toNat, 0⟩
  else ⟨x.mantissa * Nat.pow 5 (-x.exponent).toNat, x.exponent⟩

/-- The decimal with the fewest digits that reads back as this value, which is not zero.
Seventeen digits are always enough for a double; should none fit, the exact value does. -/
def shortest (x : Magnitude) : Decimal :=
  let scale := x.scale
  match (List.range 17).findSome? fun (n : Nat) => x.onGrid? (scale - 1 - n) with
  | some d => d
  | none => x.exact

end Magnitude

end GuardedExpr
