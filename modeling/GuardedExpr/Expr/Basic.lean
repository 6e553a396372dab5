import GuardedExpr.Value.Basic

/-!
# Expressions

The tree of an expression. `BinaryOp.levels` lists the binary operators by how tightly they
bind; within a level they associate to the left.
-/

namespace GuardedExpr

inductive BinaryOp where
  | add
  | sub
  | mul
  | div
  | rem
  | eq
  | ne
  | strictEq
  | strictNe
  | lt
  | le
  | gt
  | ge
  | and
  | or
deriving DecidableEq, Repr

namespace BinaryOp

def symbol : BinaryOp → String
  | .add => "+"
  | .sub => "-"
  | .mul => "*"
  | .div => "/"
  | .rem => "%"
  | .eq => "=="
  | .ne => "!="
  | .strictEq => "==="
  | .strictNe => "!=="
  | .lt => "<"
  | .le => "<="
  | .gt => ">"
  | .ge => ">="
  | .and => "&&"
  | .or => "||"

/-- The levels of binding, from the loosest to the tightest. -/
def levels : List (List BinaryOp) :=
  [[.or], [.and], [.eq, .ne, .strictEq, .strictNe], [.lt, .le, .gt, .ge], [.add, .sub],
   [.mul, .div, .rem]]

def all : List BinaryOp :=
  levels.flatten

def ofSymbol? (symbol : String) : Option BinaryOp :=
  all.find? fun op => op.symbol == symbol

def isEquality (op : BinaryOp) : Bool :=
  [.eq, .ne, .strictEq, .strictNe].contains op

def isArithmetic (op : BinaryOp) : Bool :=
  [.add, .sub, .mul, .div, .rem].contains op

theorem ofSymbol?_symbol (op : BinaryOp) : ofSymbol? op.symbol = some op := by
  cases op <;> decide

end BinaryOp

inductive UnaryOp where
  | not
  | neg
deriving DecidableEq, Repr

def UnaryOp.symbol : UnaryOp → String
  | .not => "!"
  | .neg => "-"

inductive Expr where
  | literal (value : Value)
  | identifier (name : String)
  | binary (op : BinaryOp) (left right : Expr)
  | unary (op : UnaryOp) (operand : Expr)
  /-- A property by name, `object.property`. -/
  | member (object : Expr) (property : String)
  /-- A property or element by a computed key, `object[index]`. -/
  | index (object index : Expr)
  /-- A choice, `test ? consequent : alternate`. -/
  | conditional (test consequent alternate : Expr)

instance : Inhabited Expr := ⟨.literal .absent⟩

end GuardedExpr
