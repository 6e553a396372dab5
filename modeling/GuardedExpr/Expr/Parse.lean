import GuardedExpr.Expr.Basic
import GuardedExpr.Token.Scan

/-!
# From tokens to an expression

A conditional is a chain of binary operations, perhaps with two branches behind it. A chain
is built level by level from unary operations, and these from a primary with member and index
accesses behind it. A primary in parentheses, an index and the branches of a conditional are
conditionals again, one level deeper; more than 64 levels are refused.

The parsers below take the parser for such an inner conditional as `sub`, and `conditional`
ties the knot. Its argument bounds how many conditionals may be open inside one another.
-/

namespace GuardedExpr

/-- The deepest nesting of parentheses, brackets and branches. -/
def maxNesting : Nat := 64

/-- The tokens with an end marker behind them, if they do not end with one. Places are
machine words, and the sum of two of them may go round. -/
def completed (tokens : List Token) : List Token :=
  match tokens.getLast? with
  | none => [.endAt 0]
  | some last =>
    if last.kind = .endOfInput then tokens
    else tokens ++ [.endAt ((last.position + last.text.length) % UInt64.size)]

/-- A place among the tokens, with the levels that are open there. -/
structure Cursor where
  /-- The tokens still to come, end markers among them. -/
  rest : List Token
  /-- The place of the last token, an end marker, which is looked at
  again if none is to come. -/
  endPosition : Nat
  /-- How many parentheses, brackets and branches are open. -/
  nesting : Nat
deriving DecidableEq, Repr

namespace Cursor

/-- The place in front of all tokens. -/
def ofTokens (tokens : List Token) : Cursor where
  rest := completed tokens
  endPosition := (completed tokens).getLast?.elim 0 Token.position
  nesting := 0

def next (cursor : Cursor) : Token :=
  cursor.rest.headD (.endAt cursor.endPosition)

/-- The next token, unless it is an end marker. -/
def next? (cursor : Cursor) : Option Token :=
  cursor.next.named?

def position (cursor : Cursor) : Nat :=
  cursor.next.position

/-- The place behind the next token. There is none behind an end marker. -/
def passed (cursor : Cursor) : Cursor :=
  match cursor.next? with
  | none => cursor
  | some _ => { cursor with rest := cursor.rest.drop 1 }

end Cursor

/-- Parsing reads tokens from a cursor and may fail. -/
abbrev ParseM := StateT Cursor (Except Fault)

namespace Parse

/-- The next token, which stays where it is. An end marker is told from all other tokens
and from nothing else. -/
def peek : ParseM (Option Token) := fun cursor =>
  .ok (cursor.next?, cursor)

def advance : ParseM Unit := fun cursor =>
  .ok ((), cursor.passed)

def fail {α : Type} (cause : ParseCause) : ParseM α := fun cursor =>
  .error (.parse cause cursor.position)

/-- Fails at a position already passed. -/
def failAt {α : Type} (position : Nat) (cause : ParseCause) : ParseM α := fun _ =>
  .error (.parse cause position)

/-- Moves past the next token if it is one of those looked for, and says whether it did. -/
def accept (wanted : Token → Bool) : ParseM Bool := fun cursor =>
  if cursor.next?.any wanted then .ok (true, cursor.passed) else .ok (false, cursor)

def enter : ParseM Unit := fun cursor =>
  if maxNesting ≤ cursor.nesting then
    .error (.parse (.nestedTooDeep maxNesting) cursor.position)
  else .ok ((), { cursor with nesting := cursor.nesting + 1 })

def leave : ParseM Unit := fun cursor =>
  .ok ((), { cursor with nesting := cursor.nesting - 1 })

def number (token : Token) : ParseM Expr :=
  match readDouble? token.text.toList with
  | some x => return .literal (.number x)
  | none => failAt token.position (.invalidNumber token.text)

/-- A literal, an identifier, or an expression in parentheses. -/
def primary (sub : ParseM Expr) : ParseM Expr := do
  match ← peek with
  | none => fail (.unexpected none)
  | some token =>
    match token.kind with
    | .number => advance; number token
    | .string => advance; return .literal (.text token.text)
    | .boolean => advance; return .literal (.bool (token.text == "true"))
    | .null => advance; return .literal .null
    | .identifier => advance; return .identifier token.text
    | .leftParen =>
      advance
      enter
      let inner ← sub
      if ← accept (·.kind == .rightParen) then
        leave
        return inner
      else failAt token.position (.unmatchedParen (← peek))
    | _ => fail (.unexpected (some token))

/-- The member and index accesses behind `object`. Each takes a token at least, so the
tokens to come, as `budget`, are enough rounds. -/
def accesses (sub : ParseM Expr) : List Token → Expr → ParseM Expr
  | [], object => return object
  | _ :: budget, object => do
    match ← peek with
    | none => return object
    | some token =>
      match token.kind with
      | .dot =>
        advance
        match ← peek with
        | none => fail (.missingProperty none)
        | some name =>
          if name.kind = .identifier then
            advance
            accesses sub budget (.member object name.text)
          else fail (.missingProperty (some name))
      | .leftBracket =>
        advance
        enter
        let index ← sub
        if ← accept (·.kind == .rightBracket) then
          leave
          accesses sub budget (.index object index)
        else failAt token.position (.unmatchedBracket (← peek))
      | _ => return object

def access (sub : ParseM Expr) : ParseM Expr := do
  let object ← primary sub
  accesses sub (← get).rest object

/-- The unary operator that a token in front of an operand is. -/
def unaryOp? (token : Token) : Option UnaryOp :=
  if token.isOperator "!" then some .not
  else if token.isOperator "-" then some .neg
  else none

/-- The unary operators at the front of some tokens, and the tokens behind them. -/
def unaryOps : List Token → List UnaryOp × List Token
  | [] => ([], [])
  | token :: rest =>
    match unaryOp? token with
    | some op => (op :: (unaryOps rest).1, (unaryOps rest).2)
    | none => ([], token :: rest)

/-- Unary operators and their operand. The first stands outermost. -/
def unary (sub : ParseM Expr) : ParseM Expr := do
  let cursor ← get
  set { cursor with rest := (unaryOps cursor.rest).2 }
  let operand ← access sub
  return (unaryOps cursor.rest).1.foldr .unary operand

/-- The operator of one level that a token is. -/
def binaryOp? (level : List BinaryOp) (token : Token) : Option BinaryOp :=
  if token.kind = .operator then (BinaryOp.ofSymbol? token.text).filter level.contains
  else none

/-- The operations of one level behind `left`. Each takes a token at least, so the tokens to
come, as `budget`, are enough rounds. -/
def operations (level : List BinaryOp) (operand : ParseM Expr) :
    List Token → Expr → ParseM Expr
  | [], left => return left
  | _ :: budget, left => do
    match (← peek).bind (binaryOp? level) with
    | none => return left
    | some op =>
      advance
      let right ← operand
      operations level operand budget (.binary op left right)

/-- Operands of one level, with its operators between them. -/
def chain (level : List BinaryOp) (operand : ParseM Expr) : ParseM Expr := do
  let first ← operand
  operations level operand (← get).rest first

/-- Chains of the given levels around unary operations. -/
def binary (sub : ParseM Expr) : List (List BinaryOp) → ParseM Expr
  | [] => unary sub
  | level :: tighter => chain level (binary sub tighter)

/-- A conditional whose inner conditionals are read by `sub`. -/
def conditionalWith (sub : ParseM Expr) : ParseM Expr := do
  let test ← binary sub BinaryOp.levels
  if ← accept (·.isOperator "?") then
    enter
    let consequent ← sub
    if ← accept (·.kind == .colon) then
      let alternate ← sub
      leave
      return .conditional test consequent alternate
    else fail (.missingColon (← peek))
  else return test

/-- A conditional, with at most `activations` conditionals open inside one another, this one
counted. -/
def conditional : Nat → ParseM Expr
  | 0 => fail .tooManyActivations
  | activations + 1 => conditionalWith (conditional activations)

end Parse

/-- The expression that the tokens in front of the first end marker are, read with at most
`activations` conditionals open inside one another. -/
def parseWithin (activations : Nat) (tokens : List Token) : Except Fault Expr :=
  let start := Cursor.ofTokens tokens
  match start.next? with
  | none => .error (.parse .emptyExpression start.position)
  | some _ =>
    match Parse.conditional activations start with
    | .error fault => .error fault
    | .ok (expr, stop) =>
      match stop.next? with
      | none => .ok expr
      | some token => .error (.parse (.trailing (some token)) stop.position)

/-- The expression that the tokens in front of the first end marker are. Every
inner conditional stands behind a token that opens it, so the number of tokens
bounds how many are open. -/
def parse (tokens : List Token) : Except Fault Expr :=
  parseWithin ((completed tokens).length + 1) tokens

def parseSource (source : String) (limits : SourceLimits := {}) : Except Fault Expr :=
  match tokenize source limits with
  | .error fault => .error fault
  | .ok tokens => parse tokens

end GuardedExpr
