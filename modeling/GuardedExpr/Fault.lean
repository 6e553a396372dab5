import GuardedExpr.Text.Quoted
import GuardedExpr.Token.Basic

/-!
# Faults

Why a text is refused or an evaluation fails. A fault names its cause; the wording is in
one function for each stage, and `Fault.message` puts the stage and the place in front.
-/

namespace GuardedExpr

/-- One line of a source around a character, with blanks shown as spaces. -/
structure Excerpt where
  line : List Char
  /-- The column of the character in the line. -/
  caret : Nat
deriving DecidableEq, Repr

/-- Why a source cannot be cut into tokens. -/
inductive LexCause where
  | tooLong (limit : Nat)
  | forbiddenCharacter (c : Char)
  | tooManyTokens (limit : Nat)
  | unterminatedString
  | unexpectedCharacter (c : Char) (excerpt : Excerpt)
deriving DecidableEq, Repr

/-- Why tokens cannot be grouped into an expression. What was found is `none` at the end of
the input. -/
inductive ParseCause where
  | emptyExpression
  | trailing (found : Option Token)
  | missingColon (found : Option Token)
  | missingProperty (found : Option Token)
  | unmatchedBracket (found : Option Token)
  | unmatchedParen (found : Option Token)
  | invalidNumber (text : String)
  | unexpected (found : Option Token)
  | nestedTooDeep (limit : Nat)
  /-- Too many conditionals are open inside one another. Only a parser with a bound below
  that of the nesting can fail so. -/
  | tooManyActivations
deriving DecidableEq, Repr

/-- What an expression may not do or name. -/
inductive SecurityCause where
  | forbiddenPattern (pattern : String)
  | forbiddenIdentifier (word : String)
  | forbiddenAccess (name : String)
  | readOnly (key : String)
deriving DecidableEq, Repr

/-- Why an evaluation has no value. -/
inductive EvalCause where
  | divisionByZero
  | tooDeep (limit : Nat)
deriving DecidableEq, Repr

inductive Fault where
  | lex (cause : LexCause) (position : Nat)
  | parse (cause : ParseCause) (position : Nat)
  | security (cause : SecurityCause)
  | eval (cause : EvalCause)
deriving DecidableEq, Repr

/-- Four hexadecimal digits at least, in capitals. -/
def codePoint (c : Char) : String :=
  let digits := (Nat.toDigits 16 c.toNat).map Char.toUpper
  String.ofList (List.replicate (4 - digits.length) '0' ++ digits)

namespace Excerpt

/-- The line, and under it a caret below the character. -/
def render (excerpt : Excerpt) : String :=
  "  " ++ String.ofList excerpt.line ++ "\n  " ++
    String.ofList (List.replicate excerpt.caret ' ') ++ "^"

end Excerpt

/-- How a message names what was found. -/
def describe : Option Token → String
  | none => "end of input"
  | some token =>
    match token.kind with
    | .endOfInput => "end of input"
    | .string => "string " ++ quoted token.text
    | _ => "'" ++ token.text ++ "'"

def LexCause.message : LexCause → String
  | .tooLong limit =>
    "expression exceeds maximum length of " ++ toString limit ++ " characters"
  | .forbiddenCharacter c => "forbidden character U+" ++ codePoint c
  | .tooManyTokens limit => "too many tokens (maximum " ++ toString limit ++ ")"
  | .unterminatedString => "unterminated string literal"
  | .unexpectedCharacter c excerpt =>
    "unexpected character '" ++ String.singleton c ++ "'\n" ++ excerpt.render

def ParseCause.message : ParseCause → String
  | .emptyExpression => "empty expression"
  | .trailing found => "unexpected trailing " ++ describe found
  | .missingColon found => "expected ':' in conditional, found " ++ describe found
  | .missingProperty found => "expected property name after '.', found " ++ describe found
  | .unmatchedBracket found => "unmatched '[' (found " ++ describe found ++ ")"
  | .unmatchedParen found => "unmatched '(' (found " ++ describe found ++ ")"
  | .invalidNumber text => "invalid number '" ++ text ++ "'"
  | .unexpected found => "unexpected " ++ describe found
  | .nestedTooDeep limit => "expression nested deeper than " ++ toString limit ++ " levels"
  | .tooManyActivations => "too many conditionals are open"

def SecurityCause.message : SecurityCause → String
  | .forbiddenPattern pattern => "forbidden pattern `" ++ pattern ++ "`"
  | .forbiddenIdentifier word => "identifier `" ++ word ++ "` is not allowed"
  | .forbiddenAccess name => "access not allowed: " ++ name
  | .readOnly key => "cannot assign `" ++ key ++ "`: host objects are read-only"

def EvalCause.message : EvalCause → String
  | .divisionByZero => "division by zero"
  | .tooDeep limit => "maximum recursion depth of " ++ toString limit ++ " exceeded"

namespace Fault

/-- The full text of the fault. -/
def message : Fault → String
  | .lex cause position =>
    "lex error at position " ++ toString position ++ ": " ++ cause.message
  | .parse cause position =>
    "parse error at position " ++ toString position ++ ": " ++ cause.message
  | .security cause => "security error: " ++ cause.message
  | .eval cause => "evaluation error: " ++ cause.message

/-- The offset into the source, for faults that have a place in it. -/
def position? : Fault → Option Nat
  | .lex _ position => some position
  | .parse _ position => some position
  | .security _ => none
  | .eval _ => none

end Fault

end GuardedExpr
