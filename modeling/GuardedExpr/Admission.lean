/-!
# Admission by a sliding window

At most `limit` calls are admitted in any stretch of time as long as the window. Instants are
counted in milliseconds from some start. A call that is refused leaves no trace.
-/

namespace GuardedExpr

/-- The admissions that may still count, the oldest first. -/
structure Admission where
  limit : Nat
  window : Nat
  admitted : List Nat := []
deriving DecidableEq, Repr

namespace Admission

/-- The limit and the window when none are asked for. -/
def standard : Admission where
  limit := 1000
  window := 1000

/-- Whether an admission at `instant` no longer counts at `now`. An instant that lies ahead
counts as just passed. -/
def expired (window now instant : Nat) : Bool :=
  window ≤ now - instant

def expire (admission : Admission) (now : Nat) : Admission :=
  { admission with admitted := admission.admitted.dropWhile (expired admission.window now) }

def request (admission : Admission) (now : Nat) : Bool × Admission :=
  let current := admission.expire now
  if current.admitted.length < current.limit then
    (true, { current with admitted := current.admitted ++ [now] })
  else (false, current)

/-- How many admissions count against the limit. -/
def inWindow (admission : Admission) : Nat :=
  admission.admitted.length

def reset (admission : Admission) : Admission :=
  { admission with admitted := [] }

end Admission

end GuardedExpr
