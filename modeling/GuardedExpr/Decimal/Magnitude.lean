/-!
# The magnitude of a double

A finite double without its sign is a natural number times a power of two. Printing, the
remainder and the test for a whole number all work on this pair in exact arithmetic. Powers
are written `Nat.pow` since `^` on naturals depends on what is imported.
-/

namespace GuardedExpr

/-- The finite value `mantissa * 2 ^ exponent`. -/
structure Magnitude where
  mantissa : Nat
  exponent : Int
  /-- The value is a power of two whose neighbour below is half as far as the one above. -/
  narrowBelow : Bool
deriving DecidableEq, Repr

namespace Magnitude

/-- The magnitude of a double given by its bits. NaN and the infinities have none: callers
test for them first. -/
def ofBits (bits : UInt64) : Magnitude :=
  let field : Nat := bits.toNat / Nat.pow 2 52 % Nat.pow 2 11
  let fraction : Nat := bits.toNat % Nat.pow 2 52
  if field = 0 then ⟨fraction, -1074, false⟩
  else ⟨Nat.pow 2 52 + fraction, (field : Int) - 1075, fraction = 0 ∧ 1 < field⟩

/-- The bits of `mantissa * 2 ^ exponent` for a value that a double holds exactly. The
mantissa is moved until its leading bit stands at place 52, or as far as the smallest
exponent allows. -/
def toBits (mantissa : Nat) (exponent : Int) : UInt64 :=
  let target := max (exponent + mantissa.log2 - 52) (-1074)
  let moved := mantissa <<< (exponent - target).toNat >>> (target - exponent).toNat
  if moved < Nat.pow 2 52 then moved.toUInt64
  else ((target + 1075).toNat * Nat.pow 2 52 + (moved - Nat.pow 2 52)).toUInt64

/-- The whole number that the magnitude is, if it is one. -/
def whole? (x : Magnitude) : Option Nat :=
  if 0 ≤ x.exponent then some (x.mantissa * Nat.pow 2 x.exponent.toNat)
  else
    let unit := Nat.pow 2 (-x.exponent).toNat
    if x.mantissa % unit = 0 then some (x.mantissa / unit) else none

end Magnitude

def signBit (x : Float) : Bool :=
  Nat.pow 2 63 ≤ x.toBits.toNat

def isInfinite (x : Float) : Bool :=
  x.toBits.toNat % Nat.pow 2 63 == 0x7FF0000000000000

/-- The natural number that the double is, if it is one. Both zeros are `0`. -/
def natOf? (x : Float) : Option Nat :=
  if x.isNaN || isInfinite x then none
  else
    match (Magnitude.ofBits x.toBits).whole? with
    | some 0 => some 0
    | some n => if signBit x then none else some n
    | none => none

def notANumber : Float := 0.0 / 0.0

end GuardedExpr
