import GuardedExpr.Entries
import GuardedExpr.Host.Raw
import GuardedExpr.SafeKey

/-!
# Sanitizing

`sanitize` makes the context of an expression from the raw context of the host. It never
fails: what is unsafe, callable or too much is left out.

* A map keeps its first 50 entries with safe keys, and of those the
ones that are not callable.
* A list keeps its first 1,000 elements. A callable among them leaves its slot absent.
* Below 50 levels every value is an empty map.
* An object of the host becomes a view that knows how deep it lies.
-/

namespace GuardedExpr

def maxDepth : Nat := 50

def maxListLength : Nat := 1000

/-- How many entries of a map are looked at. -/
def maxMapKeys : Nat := 50

structure Context where
  vars : Entries Value

/-- The entries of a map that are kept, given what its values sanitize to. Callables count
among the first 50 although they are not kept. -/
def keptEntries (entries : List (String × Option Value)) : Entries Value :=
  ((entries.filter fun entry => isSafeKey entry.1).take maxMapKeys).filterMap fun entry =>
    entry.2.map fun value => (entry.1, value)

/-- The elements of a list that are kept, given what they sanitize to. -/
def keptItems (items : List (Option Value)) : List Value :=
  (items.take maxListLength).map fun item => item.getD .absent

/-- The value at `depth`, or an empty map below the deepest level. -/
@[macro_inline] def cutAt (depth : Nat) (value : Value) : Value :=
  if maxDepth < depth then .map [] else value

namespace RawValue

mutual

/-- What raw data at `depth` is for an expression. A callable is nothing. -/
def sanitize? (depth : Nat) : RawValue → Option Value
  | .callable _ => none
  | .null => some (cutAt depth .null)
  | .bool b => some (cutAt depth (.bool b))
  | .number x => some (cutAt depth (.number x))
  | .text s => some (cutAt depth (.text s))
  | .list items => some (cutAt depth (.list (keptItems (sanitizeItems (depth + 1) items))))
  | .map entries =>
    some (cutAt depth (.map (keptEntries (sanitizeEntries (depth + 1) entries))))
  | .object id => some (cutAt depth (.host ⟨id, depth⟩))

/-- What the elements of a list are, each on its own. -/
def sanitizeItems (depth : Nat) : List RawValue → List (Option Value)
  | [] => []
  | item :: items => item.sanitize? depth :: sanitizeItems depth items

/-- What the values of a map are, each on its own. -/
def sanitizeEntries (depth : Nat) : List (String × RawValue) → List (String × Option Value)
  | [] => []
  | (key, value) :: entries => (key, value.sanitize? depth) :: sanitizeEntries depth entries

end

theorem sanitizeItems_eq_map (depth : Nat) (items : List RawValue) :
    sanitizeItems depth items = items.map (sanitize? depth) := by
  induction items with
  | nil => rfl
  | cons item items ih => rw [sanitizeItems, ih, List.map_cons]

theorem sanitizeEntries_eq_map (depth : Nat) (entries : List (String × RawValue)) :
    sanitizeEntries depth entries =
      entries.map fun entry => (entry.1, entry.2.sanitize? depth) := by
  induction entries with
  | nil => rfl
  | cons entry entries ih => rw [sanitizeEntries, ih, List.map_cons]

/-- Callables, and nothing else, sanitize to nothing. -/
theorem sanitize?_eq_none_iff {depth : Nat} {raw : RawValue} :
    raw.sanitize? depth = none ↔ raw.isCallable = true := by
  cases raw <;> simp [sanitize?, isCallable]

end RawValue

def sanitize (raw : RawContext) : Context :=
  ⟨keptEntries (RawValue.sanitizeEntries 1 raw)⟩

end GuardedExpr
