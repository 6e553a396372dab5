/-!
# Unique ids

An id is a number of 128 bits. Its text has 26 digits of five bits, the first of them with
only three; the letters I, L, O and U are no digits.
-/

namespace GuardedExpr

abbrev Uid := BitVec 128

namespace Uid

def digits : List Char :=
  "0123456789ABCDEFGHJKMNPQRSTVWXYZ".toList

/-- The digit for the five bits from `place` on. -/
def digitAt (id : Uid) (place : Nat) : Char :=
  digits.getD (id.toNat / Nat.pow 2 place % 32) '0'

/-- The text of an id, the highest digit first. -/
def text (id : Uid) : String :=
  String.ofList ((List.range 26).reverse.map fun i => id.digitAt (5 * i))

end Uid

end GuardedExpr
