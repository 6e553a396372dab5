import GuardedExpr.SafeKey
import GuardedExpr.Text.Case
import GuardedExpr.Token.Basic

/-!
# Lexemes

`lexeme?` cuts one lexeme from the front of a text. It is the longest of its class: a numeral
takes a fraction and an exponent when digits follow, a word takes every character that a
name may hold, and an operator of two or three characters goes before one of a single
character. A string runs to the next quote of its kind that has no backslash in front.
-/

namespace GuardedExpr

structure Lexeme where
  kind : TokenKind
  text : List Char
  /-- The characters that the lexeme takes up. -/
  source : List Char
  rest : List Char
deriving DecidableEq, Repr

/-- Why no lexeme stands at the front of a text. -/
inductive NoLexeme where
  | unterminatedString
  | forbiddenIdentifier (word : String)
  | unexpectedCharacter (c : Char)
deriving DecidableEq, Repr

namespace Lexeme

def verbatim (kind : TokenKind) (source rest : List Char) : Lexeme :=
  ⟨kind, source, source, rest⟩

/-- The point and digits that continue a numeral, or nothing. -/
def fraction : List Char → List Char
  | '.' :: rest =>
    if rest.head?.any Char.isDigit then '.' :: rest.takeWhile Char.isDigit else []
  | _ => []

/-- A sign at the front of a text, or nothing. -/
def sign : List Char → List Char
  | '+' :: _ => ['+']
  | '-' :: _ => ['-']
  | _ => []

/-- The mark, sign and digits that continue a numeral, or nothing. -/
def exponent : List Char → List Char
  | [] => []
  | mark :: rest =>
    let digits := rest.drop (sign rest).length
    if (mark == 'e' || mark == 'E') && digits.head?.any Char.isDigit then
      mark :: sign rest ++ digits.takeWhile Char.isDigit
    else []

/-- The longest numeral at the front of a text. -/
def numeral (text : List Char) : List Char :=
  let whole := text.takeWhile Char.isDigit
  let afterWhole := text.dropWhile Char.isDigit
  let part := fraction afterWhole
  whole ++ part ++ exponent (afterWhole.drop part.length)

/-- What a character means behind a backslash. -/
def unescape : Char → Char
  | 'n' => '\n'
  | 't' => '\t'
  | 'r' => '\r'
  | c => c

/-- The rest of a string behind its opening quote, as a string lexeme. -/
def closeString? (quote : Char) : List Char → Option Lexeme
  | [] => none
  | ['\\'] => none
  | '\\' :: c :: rest => (closeString? quote rest).map fun tail =>
      ⟨.string, unescape c :: tail.text, '\\' :: c :: tail.source, tail.rest⟩
  | c :: rest =>
    if c == quote then some ⟨.string, [], [c], rest⟩
    else (closeString? quote rest).map fun tail =>
      ⟨.string, c :: tail.text, c :: tail.source, tail.rest⟩

def isWordStart (c : Char) : Bool :=
  c.isAlpha || c == '_' || c == '$'

def isWordPart (c : Char) : Bool :=
  c.isAlphanum || c == '_' || c == '$'

/-- Whether `script` stands in the word, in any case. -/
def mentionsScript (word : List Char) : Bool :=
  occursIn "script".toList (asciiLower word)

/-- A keyword or an identifier, unless the word is not one that an expression may use. -/
def ofWord (word rest : List Char) : Except NoLexeme Lexeme :=
  if word = "true".toList || word = "false".toList then .ok (verbatim .boolean word rest)
  else if word = "null".toList then .ok (verbatim .null word rest)
  else if !isSafeKey (String.ofList word) || mentionsScript word then
    .error (.forbiddenIdentifier (String.ofList word))
  else .ok (verbatim .identifier word rest)

/-- Operators of more than one character, each in front of those that start it. -/
def longOperators : List (List Char) :=
  ["===", "!==", "==", "!=", "<=", ">=", "&&", "||"].map String.toList

def shortOperators : List Char :=
  ['+', '-', '*', '/', '%', '<', '>', '!', '?']

/-- The kind of a token of one character that is no operator. -/
def punctuation? : Char → Option TokenKind
  | '.' => some .dot
  | '(' => some .leftParen
  | ')' => some .rightParen
  | '[' => some .leftBracket
  | ']' => some .rightBracket
  | ':' => some .colon
  | _ => none

/-- An operator or a mark of punctuation at the front of `c :: rest`. -/
def ofSymbol (c : Char) (rest : List Char) : Except NoLexeme Lexeme :=
  match longOperators.find? (·.isPrefixOf (c :: rest)) with
  | some operator => .ok (verbatim .operator operator ((c :: rest).drop operator.length))
  | none =>
    if shortOperators.contains c then .ok (verbatim .operator [c] rest)
    else
      match punctuation? c with
      | some kind => .ok (verbatim kind [c] rest)
      | none => .error (.unexpectedCharacter c)

end Lexeme

/-- The lexeme at the front of `c :: rest`. -/
def lexeme? (c : Char) (rest : List Char) : Except NoLexeme Lexeme :=
  if c.isDigit then
    let numeral := Lexeme.numeral (c :: rest)
    .ok (.verbatim .number numeral ((c :: rest).drop numeral.length))
  else if c == '"' || c == '\'' then
    match Lexeme.closeString? c rest with
    | some tail => .ok { tail with source := c :: tail.source }
    | none => .error .unterminatedString
  else if Lexeme.isWordStart c then
    Lexeme.ofWord ((c :: rest).takeWhile Lexeme.isWordPart)
      ((c :: rest).dropWhile Lexeme.isWordPart)
  else Lexeme.ofSymbol c rest

end GuardedExpr
