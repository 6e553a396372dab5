import GuardedExpr.Decimal.Magnitude

/-!
# Reading numbers

`readDouble?` reads a decimal numeral as the nearest double, ties to even: an optional
sign, digits with at most one point among them, and an optional exponent. The words
for the infinities and for NaN are read in any case. `readNatural?` reads a natural
number that fits into 64 bits.
-/

namespace GuardedExpr

def digitsValue (digits : List Char) : Nat :=
  digits.foldl (fun n c => 10 * n + (c.toNat - '0'.toNat)) 0

/-- A sign in front of a text, as whether it is a minus, and the rest. -/
def takeSign : List Char → Bool × List Char
  | '-' :: text => (true, text)
  | '+' :: text => (false, text)
  | text => (false, text)

/-- The double nearest to `digits * 10 ^ exponent`. Exponents far outside the range of
doubles are decided without building their power of ten. -/
def nearestDouble (digits : List Char) (exponent : Int) : Float :=
  let significant := digits.dropWhile (· == '0')
  let lead := exponent + significant.length
  if significant.isEmpty || lead < -400 then 0.0
  else if 400 < lead then 1.0 / 0.0
  else Float.ofScientific (digitsValue significant) (exponent < 0) exponent.natAbs

/-- The exponent that a text is, if it is nothing, or a mark, an optional sign and digits. -/
def readExponent? : List Char → Option Int
  | [] => some 0
  | mark :: text =>
    if mark == 'e' || mark == 'E' then
      let (negative, digits) := takeSign text
      if !digits.isEmpty && digits.all Char.isDigit then
        some (if negative then -digitsValue digits else digitsValue digits)
      else none
    else none

def readUnsigned? (text : List Char) : Option Float :=
  let lower := text.map Char.toLower
  if lower = "inf".toList || lower = "infinity".toList then some (1.0 / 0.0)
  else if lower = "nan".toList then some notANumber
  else
    let whole := text.takeWhile Char.isDigit
    let afterWhole := text.dropWhile Char.isDigit
    let afterPoint := if afterWhole.head? = some '.' then afterWhole.drop 1 else afterWhole
    let fraction :=
      if afterWhole.head? = some '.' then afterPoint.takeWhile Char.isDigit else []
    if whole.isEmpty && fraction.isEmpty then none
    else
      match readExponent? (afterPoint.drop fraction.length) with
      | some exponent =>
        some (nearestDouble (whole ++ fraction) (exponent - fraction.length))
      | none => none

/-- The double that a text denotes, if it is a number. -/
def readDouble? (text : List Char) : Option Float :=
  let (negative, rest) := takeSign text
  (readUnsigned? rest).map fun x => if negative then -x else x

/-- The natural number below `2 ^ 64` that a text denotes: digits, with a
plus sign or without. -/
def readNatural? (text : List Char) : Option Nat :=
  let digits := if text.head? = some '+' then text.drop 1 else text
  if !digits.isEmpty && digits.all Char.isDigit && digitsValue digits < Nat.pow 2 64 then
    some (digitsValue digits)
  else none

end GuardedExpr
