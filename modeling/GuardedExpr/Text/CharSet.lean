/-!
# Sets of characters

A `CharSet` is a list of closed ranges of code points in ascending order, so a lookup
can stop at the first range that starts above the character.
-/

namespace GuardedExpr

/-- Closed ranges of code points, ascending and apart. -/
abbrev CharSet := List (Nat × Nat)

namespace CharSet

/-- Whether the code point `n` lies in one of the ranges. -/
def covers : CharSet → Nat → Bool
  | [], _ => false
  | (lo, hi) :: ranges, n => if n < lo then false else n ≤ hi || covers ranges n

def contains (set : CharSet) (c : Char) : Bool :=
  covers set c.toNat

@[simp] theorem covers_nil (n : Nat) : covers [] n = false := rfl

theorem covers_cons (lo hi : Nat) (ranges : CharSet) (n : Nat) :
    covers ((lo, hi) :: ranges) n =
      if n < lo then false else n ≤ hi || covers ranges n := rfl

end CharSet

end GuardedExpr
