/-!
# Tokens

A token has a kind, a text and the offset of its first character. The text of a string token
is what the string holds, that of any other token is what stands in the source.
-/

namespace GuardedExpr

inductive TokenKind where
  | identifier
  | number
  | string
  | boolean
  | null
  | operator
  | dot
  | leftParen
  | rightParen
  | leftBracket
  | rightBracket
  | colon
  | endOfInput
deriving DecidableEq, Repr

structure Token where
  kind : TokenKind
  text : String
  /-- The offset of the first character, counted in characters from zero. -/
  position : Nat
deriving DecidableEq, Repr

namespace Token

/-- The marker behind the last token of a source with `length` characters. -/
def endAt (length : Nat) : Token :=
  ⟨.endOfInput, "", length⟩

/-- What a fault names as found in front of a token: nothing where the input ends. -/
def named? (token : Token) : Option Token :=
  if token.kind = .endOfInput then none else some token

/-- Whether this is the operator written `symbol`. -/
def isOperator (token : Token) (symbol : String) : Bool :=
  token.kind == .operator && token.text == symbol

end Token

end GuardedExpr
