import GuardedExpr.Text.Quoted
import GuardedExpr.Value.Basic

/-!
# What the host hands in

Raw data may hold callables and objects of the host at any place. An expression never sees
it: `sanitize` makes values of it first.
-/

namespace GuardedExpr

/-- Data of the host before it is sanitized. -/
inductive RawValue where
  | null
  | bool (value : Bool)
  | number (value : Float)
  | text (value : String)
  | list (items : List RawValue)
  | map (entries : List (String × RawValue))
  /-- A function of the host. No expression can call or see it. -/
  | callable (run : List Value → Value)
  | object (id : ObjectId)

/-- The variables that the host offers to an expression. -/
abbrev RawContext := List (String × RawValue)

namespace RawValue

instance : Inhabited RawValue := ⟨.null⟩

def isCallable : RawValue → Bool
  | .callable _ => true
  | _ => false

/-- Numbers in the picture of raw data: whole ones keep a zero behind the point, and from
`10 ^ 16` on or below `10 ^ -4` they have an exponent. -/
def numberStyle : NumberStyle where
  plainFrom := -4
  plainBelow := 16
  wholeInFull := false
  wholeSuffix := ".0"
  exponentPlus := ""
  negativeZero := "-0.0"
  zero := "0.0"
  notANumber := "NaN"
  infinity := "inf"

mutual

/-- A picture of raw data for the developer. Callables and objects show
nothing of themselves. -/
def picture : RawValue → String
  | .null => "Null"
  | .bool true => "Bool(true)"
  | .bool false => "Bool(false)"
  | .number x => "Number(" ++ numberStyle.write x ++ ")"
  | .text s => "Str(" ++ quoted s ++ ")"
  | .list items => "List([" ++ ", ".intercalate (pictures items) ++ "])"
  | .map entries => "Map(\x7b" ++ ", ".intercalate (entryPictures entries) ++ "\x7d)"
  | .callable _ => "Function(..)"
  | .object _ => "Object(..)"

def pictures : List RawValue → List String
  | [] => []
  | item :: items => picture item :: pictures items

def entryPictures : List (String × RawValue) → List String
  | [] => []
  | (key, value) :: entries => (quoted key ++ ": " ++ picture value) :: entryPictures entries

end

end RawValue

end GuardedExpr
