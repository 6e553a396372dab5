/-!
# Safe keys

The names that an expression may use, in a context, a map or an object of the host. Names
that start with two underscores, a short list of reflective names, and names of more than
50 characters are not safe.
-/

namespace GuardedExpr

/-- The longest safe key, in characters. -/
def maxKeyLength : Nat := 50

def deniedKeys : List String :=
  ["prototype", "constructor", "__proto__", "window", "document", "eval", "Function"]

/-- Whether `key` may be read from a context, a map or an object of the host. -/
def isSafeKey (key : String) : Bool :=
  !(['_', '_'].isPrefixOf key.toList) && !deniedKeys.contains key &&
    key.length ≤ maxKeyLength

theorem isSafeKey_iff {key : String} :
    isSafeKey key = true ↔
      ¬ ['_', '_'] <+: key.toList ∧ key ∉ deniedKeys ∧ key.length ≤ maxKeyLength := by
  simp [isSafeKey, and_assoc]
  simp [← List.isPrefixOf_iff_prefix]

end GuardedExpr
