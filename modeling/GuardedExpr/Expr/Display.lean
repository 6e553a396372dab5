import GuardedExpr.Expr.Basic
import GuardedExpr.Text.Quoted

/-!
# Showing an expression

Every binary operation and every choice is put in parentheses, so the text shows
how the source was grouped.
-/

namespace GuardedExpr

/-- A literal in an expression: texts are quoted, all else is shown as the value is. -/
def Value.asLiteral : Value → String
  | .text s => quoted s
  | v => v.display

/-- The expression in full parentheses. -/
def Expr.display : Expr → String
  | .literal v => v.asLiteral
  | .identifier name => name
  | .binary op l r => "(" ++ l.display ++ " " ++ op.symbol ++ " " ++ r.display ++ ")"
  | .unary op e => op.symbol ++ e.display
  | .member e property => e.display ++ "." ++ property
  | .index e key => e.display ++ "[" ++ key.display ++ "]"
  | .conditional t c a => "(" ++ t.display ++ " ? " ++ c.display ++ " : " ++ a.display ++ ")"

end GuardedExpr
