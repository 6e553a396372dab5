import GuardedExpr.Expr.Basic
import GuardedExpr.Host.View
import GuardedExpr.Value.Arithmetic
import GuardedExpr.Value.Comparison

/-!
# Evaluation

An expression is evaluated in a scope: the variables of a context, the objects of the host
behind its views, and a ceiling for the recursion. Operands are evaluated from left to
right and both of them always, also those of `&&` and `||`; of a conditional only the
branch that the test selects.

The depth of the recursion is part of the state. Every node raises it for its
parts and puts it back, whether the parts succeed or fail, so one state can serve
any number of evaluations.
-/

namespace GuardedExpr

/-- The largest number that is an index. -/
def maxIndex : Nat := 10000

structure Scope where
  world : World
  context : Context
  /-- How many nodes may be open inside one another. -/
  ceiling : Nat := 100

structure EvalState where
  depth : Nat := 0
  /-- The reads made so far, the latest first. -/
  reads : List Read := []
deriving DecidableEq, Repr

/-- Evaluating may fail, and keeps its state also then. -/
abbrev EvalM := ExceptT Fault (StateM EvalState)

namespace EvalM

def ofRead {α : Type} (read : ReadM α) : EvalM α := fun state =>
  let (a, reads) := read state.reads
  (.ok a, { state with reads })

/-- Evaluates the parts of a node one level deeper, unless that is above the ceiling. -/
def visit {α : Type} (ceiling : Nat) (parts : EvalM α) : EvalM α := fun state =>
  if ceiling ≤ state.depth then (.error (.eval (.tooDeep ceiling)), state)
  else
    let (result, after) := parts { state with depth := state.depth + 1 }
    (result, { after with depth := after.depth - 1 })

end EvalM

namespace Value

/-- The property of a value under a name. Unsafe and missing properties are absent. -/
def member (world : World) (object : Value) (property : String) : ReadM Value :=
  if isSafeKey property then
    match object with
    | .text s =>
      return if property = "length" then .number (Float.ofNat s.length) else .absent
    | .list items =>
      return if property = "length" then .number (Float.ofNat items.length) else .absent
    | .map entries => return (entries.lookup property).getD .absent
    | .host view => view.get world property
    | _ => return .absent
  else return .absent

/-- The key that a value selects in brackets: a safe text, or a whole number that is not
too large, by its digits. -/
def asKey? : Value → Option String
  | .text s => if isSafeKey s then some s else none
  | .number x =>
    match natOf? x with
    | some n => if n ≤ maxIndex then some (toString n) else none
    | none => none
  | _ => none

def element (items : List Value) (key : String) : Value :=
  match readNatural? key.toList with
  | some i => (items[i]?).getD .absent
  | none => if key = "length" then .number (Float.ofNat items.length) else .absent

/-- The part of a value that another value selects in brackets. -/
def select (world : World) (object key : Value) : ReadM Value :=
  match key.asKey? with
  | none => return .absent
  | some key =>
    match object with
    | .list items => return element items key
    | .map entries => return (entries.lookup key).getD .absent
    | .host view => view.get world key
    | _ => return .absent

end Value

namespace BinaryOp

/-- Whether an operator that orders its operands accepts the order that they have. -/
def accepts (op : BinaryOp) (order : Option Ordering) : Bool :=
  match op, order with
  | .lt, some .lt => true
  | .le, some .lt => true
  | .le, some .eq => true
  | .gt, some .gt => true
  | .ge, some .gt => true
  | .ge, some .eq => true
  | _, _ => false

/-- The result of a binary operation. With a void operand arithmetic gives NaN and no order
holds. -/
def apply (op : BinaryOp) (l r : Value) : Except Fault Value :=
  match op with
  | .eq => .ok (.bool (l.looseEq r))
  | .ne => .ok (.bool (!l.looseEq r))
  | .strictEq => .ok (.bool (l.strictEq r))
  | .strictNe => .ok (.bool (!l.strictEq r))
  | .and => .ok (if l.truthy then r else l)
  | .or => .ok (if l.truthy then l else r)
  | .add => if l.isVoid || r.isVoid then .ok (.number notANumber) else .ok (l.add r)
  | .sub => if l.isVoid || r.isVoid then .ok (.number notANumber) else .ok (l.sub r)
  | .mul => if l.isVoid || r.isVoid then .ok (.number notANumber) else .ok (l.mul r)
  | .div => if l.isVoid || r.isVoid then .ok (.number notANumber) else l.div r
  | .rem => if l.isVoid || r.isVoid then .ok (.number notANumber) else .ok (l.rem r)
  | .lt | .le | .gt | .ge =>
    .ok (.bool (!(l.isVoid || r.isVoid) && op.accepts (l.compare? r)))

end BinaryOp

def UnaryOp.apply : UnaryOp → Value → Value
  | .not, v => .bool !v.truthy
  | .neg, v => v.neg

namespace Scope

/-- The value of a variable. An unbound one is absent. -/
def lookup (scope : Scope) (name : String) : Except Fault Value :=
  if isSafeKey name then .ok ((scope.context.vars.lookup name).getD .absent)
  else .error (.security (.forbiddenAccess name))

/-- Evaluates an expression from a state that an earlier evaluation may have left. -/
def eval (scope : Scope) : Expr → EvalM Value
  | .literal v => .visit scope.ceiling (pure v)
  | .identifier name => .visit scope.ceiling (liftExcept (scope.lookup name))
  | .binary op left right => .visit scope.ceiling do
    let l ← scope.eval left
    let r ← scope.eval right
    liftExcept (op.apply l r)
  | .unary op operand => .visit scope.ceiling do
    let v ← scope.eval operand
    return op.apply v
  | .member object property => .visit scope.ceiling do
    let v ← scope.eval object
    .ofRead (v.member scope.world property)
  | .index object index => .visit scope.ceiling do
    let v ← scope.eval object
    let key ← scope.eval index
    .ofRead (v.select scope.world key)
  | .conditional test consequent alternate => .visit scope.ceiling do
    let v ← scope.eval test
    if v.truthy then scope.eval consequent else scope.eval alternate
where
  /-- A result that needs no state. -/
  liftExcept (result : Except Fault Value) : EvalM Value := fun state => (result, state)

/-- Evaluates an expression in a new state. Earlier reads are the host's to remember. -/
def evalAnew (scope : Scope) (expr : Expr) : ReadM (Except Fault Value) := fun reads =>
  let (result, state) := scope.eval expr { reads }
  (result, state.reads)

/-- The value of an expression, and the reads that were made for it, in order. -/
def run (scope : Scope) (expr : Expr) : Except Fault Value × List Read :=
  let (result, state) := scope.eval expr {}
  (result, state.reads.reverse)

end Scope

end GuardedExpr
