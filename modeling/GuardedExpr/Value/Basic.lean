import GuardedExpr.Decimal.Style
import GuardedExpr.Decimal.Numeral
import GuardedExpr.Text.Blank

/-!
# Values

What an expression works with: plain data, and views of objects that the host keeps. A value
is never a callable. `absent` stands for what is not there and differs from `null`.

Coercions are loose. Every value has a text, a truth value and a number; what has no number
coerces to NaN.
-/

namespace GuardedExpr

/-- The name of an object of the host. Two views are of one object exactly
when their names agree. -/
structure ObjectId where
  index : Nat
deriving DecidableEq, Repr

/-- A view of an object of the host, read from `depth` levels inside the context. -/
structure HostView where
  object : ObjectId
  depth : Nat
deriving DecidableEq, Repr

inductive Value where
  /-- What an unbound name and a missing or disallowed property have. -/
  | absent
  | null
  | bool (value : Bool)
  | number (value : Float)
  | text (value : String)
  | list (items : List Value)
  | map (entries : List (String × Value))
  | host (view : HostView)

namespace Value

instance : Inhabited Value := ⟨.absent⟩

/-- Numbers show the fewest digits that read back, and whole numbers below `10 ^ 21` all
their digits. Other large numbers and those below `10 ^ -6` have an exponent. -/
def numberStyle : NumberStyle where
  plainFrom := -6
  plainBelow := 21
  wholeInFull := true
  wholeSuffix := ""
  exponentPlus := "+"
  negativeZero := "0"
  zero := "0"
  notANumber := "NaN"
  infinity := "Infinity"

def isNullish : Value → Bool
  | .absent => true
  | .null => true
  | _ => false

def isNaN : Value → Bool
  | .number x => x.isNaN
  | _ => false

/-- Absent, null and NaN: the operands that arithmetic and ordering do not look into. -/
def isVoid (v : Value) : Bool :=
  v.isNullish || v.isNaN

mutual

/-- The text of a value, as a template shows it. -/
def display : Value → String
  | .absent => "undefined"
  | .null => "null"
  | .bool true => "true"
  | .bool false => "false"
  | .number x => numberStyle.write x
  | .text s => s
  | .list items => ",".intercalate (displayItems items)
  | .map _ => "[object Object]"
  | .host _ => "[object Object]"

/-- The texts of the elements of a list. Absent and null elements are blank. -/
def displayItems : List Value → List String
  | [] => []
  | item :: items => (if item.isNullish then "" else item.display) :: displayItems items

end

def truthy : Value → Bool
  | .absent => false
  | .null => false
  | .bool b => b
  | .number x => !(x == 0.0) && !x.isNaN
  | .text s => s != ""
  | .list _ => true
  | .map _ => true
  | .host _ => true

/-- The number that a text stands for. White space at its ends does not count, a blank text
is zero, and words for infinities and NaN are no numbers here. -/
def numberOfText (text : String) : Float :=
  let digits := trim text.toList
  if digits.isEmpty then 0.0
  else if digits.all fun c => c.isDigit || "+-.eE".toList.contains c then
    (readDouble? digits).getD notANumber
  else notANumber

def toNumber : Value → Float
  | .absent => notANumber
  | .null => 0.0
  | .bool b => if b then 1.0 else 0.0
  | .number x => x
  | .text s => numberOfText s
  | .list _ => notANumber
  | .map _ => notANumber
  | .host _ => notANumber

def typeName : Value → String
  | .absent => "undefined"
  | .null => "null"
  | .bool _ => "boolean"
  | .number _ => "number"
  | .text _ => "string"
  | .list _ => "array"
  | .map _ => "object"
  | .host _ => "object"

def isText : Value → Bool
  | .text _ => true
  | _ => false

end Value

end GuardedExpr
