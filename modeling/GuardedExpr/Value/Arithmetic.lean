import GuardedExpr.Decimal.Remainder
import GuardedExpr.Fault
import GuardedExpr.Value.Basic

/-!
# Arithmetic on values

Addition joins texts as soon as one side is a text; all else is arithmetic on the numbers
that the values coerce to. Only a division by the number zero fails.
-/

namespace GuardedExpr.Value

/-- The sum of two numbers, or two texts in a row when either side is a text. -/
def add (a b : Value) : Value :=
  if a.isText || b.isText then .text (a.display ++ b.display)
  else .number (a.toNumber + b.toNumber)

def sub (a b : Value) : Value :=
  .number (a.toNumber - b.toNumber)

def mul (a b : Value) : Value :=
  .number (a.toNumber * b.toNumber)

/-- Whether the value is the number zero, of either sign. -/
def isNumberZero : Value → Bool
  | .number x => x == 0.0
  | _ => false

/-- The quotient. A divisor that only coerces to zero divides to an infinity or NaN. -/
def div (a b : Value) : Except Fault Value :=
  if b.isNumberZero then .error (.eval .divisionByZero)
  else .ok (.number (a.toNumber / b.toNumber))

/-- What a division towards zero leaves over. By zero that is NaN. -/
def rem (a b : Value) : Value :=
  .number (remainder a.toNumber b.toNumber)

def neg (a : Value) : Value :=
  .number (-a.toNumber)

end GuardedExpr.Value
