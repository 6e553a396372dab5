import GuardedExpr.Value.Basic

/-!
# Comparing values

`strictEq` asks for the same kind and the same content, to any depth; the order of a map's
entries does not count, a view equals the views of the same object, and NaN equals
nothing. `looseEq` also compares numbers, truth values and texts with each other, as
numbers, and takes absent and null for equal. `compare?` orders two texts by code points
and all else by numbers.
-/

namespace GuardedExpr.Value

mutual

/-- Whether two values are of one kind and have one content. -/
def strictEq : Value → Value → Bool
  | .absent, .absent => true
  | .null, .null => true
  | .bool a, .bool b => a == b
  | .number a, .number b => a == b
  | .text a, .text b => a == b
  | .list a, .list b => strictEqItems a b
  | .map a, .map b => a.length == b.length && strictEqEntries a b
  | .host a, .host b => a.object == b.object
  | _, _ => false

/-- Whether two lists have equal elements in the same places. -/
def strictEqItems : List Value → List Value → Bool
  | [], [] => true
  | a :: as, b :: bs => strictEq a b && strictEqItems as bs
  | _, _ => false

/-- Whether every entry of the first map has an equal one under its name in the second. -/
def strictEqEntries : List (String × Value) → List (String × Value) → Bool
  | [], _ => true
  | (key, a) :: entries, others =>
    (match others.lookup key with
      | some b => strictEq a b
      | none => false) && strictEqEntries entries others

end

/-- Whether the value is a number, a truth value or a text: those compare as numbers when
their kinds differ. -/
def isScalar : Value → Bool
  | .bool _ => true
  | .number _ => true
  | .text _ => true
  | _ => false

def looseEq (a b : Value) : Bool :=
  if a.isNullish || b.isNullish then a.isNullish && b.isNullish
  else if a.isScalar && b.isScalar && !(a.isText && b.isText) then a.toNumber == b.toNumber
  else a.strictEq b

/-- The order of two doubles, which NaN has with none. -/
def compareNumbers? (x y : Float) : Option Ordering :=
  if x < y then some .lt
  else if y < x then some .gt
  else if x == y then some .eq
  else none

/-- The order of two texts by their code points. -/
def compareTexts (s t : String) : Ordering :=
  if s < t then .lt else if s = t then .eq else .gt

def compare? : Value → Value → Option Ordering
  | .text s, .text t => some (compareTexts s t)
  | a, b => compareNumbers? a.toNumber b.toNumber

end GuardedExpr.Value
