import GuardedExpr.Fault
import GuardedExpr.Token.Lexeme
import GuardedExpr.Token.Screen

/-!
# From source to tokens

`tokenize` checks a source as a whole, and then cuts it into lexemes with white space
between them. The checks come in a fixed order: length, forbidden characters, screen. The
cap on tokens is looked at before each lexeme is read, so a source is refused for the
lexeme that would exceed it and not for one that is ill-formed further on.
-/

namespace GuardedExpr

structure SourceLimits where
  maxLength : Nat := 10000
  maxTokens : Nat := 1000
deriving DecidableEq, Repr

/-- Controls other than tab, line feed and carriage return, and the two line separators. -/
def isForbiddenChar (c : Char) : Bool :=
  let n := c.toNat
  n ≤ 0x8 || n == 0xB || n == 0xC || (0xE ≤ n && n ≤ 0x1F) || n == 0x7F || n == 0x2028 ||
    n == 0x2029

/-- How many characters an excerpt shows on each side of the one it points at. -/
def excerptRadius : Nat := 20

/-- The line around the character at `position`. -/
def Excerpt.around (source : List Char) (position : Nat) : Excerpt :=
  let start := position - excerptRadius
  { line := ((source.drop start).take (position + excerptRadius + 1 - start)).map fun c =>
      if isBlank c then ' ' else c
    caret := position - start }

/-- The fault for a text that goes on at `position` with no lexeme. -/
def NoLexeme.fault (source : List Char) (position : Nat) : NoLexeme → Fault
  | .unterminatedString => .lex .unterminatedString position
  | .forbiddenIdentifier word => .security (.forbiddenIdentifier word)
  | .unexpectedCharacter c =>
    .lex (.unexpectedCharacter c (.around source position)) position

/-- The tokens of `text`, which stands in `source` at `position`, if they are at
most `room` many. Every lexeme takes up at least one character, so the length of
the text is fuel enough. -/
def scanFrom (limits : SourceLimits) (source : List Char) :
    Nat → Nat → Nat → List Char → Except Fault (List Token)
  | 0, _, position, _ => .ok [.endAt position]
  | fuel + 1, room, position, text =>
    let start := position + (text.takeWhile isBlank).length
    match text.dropWhile isBlank with
    | [] => .ok [.endAt start]
    | c :: rest =>
      match room with
      | 0 => .error (.lex (.tooManyTokens limits.maxTokens) start)
      | room + 1 =>
        match lexeme? c rest with
        | .error cause => .error (cause.fault source start)
        | .ok lexeme =>
          match scanFrom limits source fuel room (start + lexeme.source.length)
              lexeme.rest with
          | .error fault => .error fault
          | .ok tokens => .ok (⟨lexeme.kind, String.ofList lexeme.text, start⟩ :: tokens)

def scan (limits : SourceLimits) (source : List Char) : Except Fault (List Token) :=
  scanFrom limits source source.length limits.maxTokens 0 source

def checkSource (limits : SourceLimits) (source : List Char) : Except Fault Unit :=
  if limits.maxLength < source.length then
    .error (.lex (.tooLong limits.maxLength) limits.maxLength)
  else
    match source.find? isForbiddenChar with
    | some c => .error (.lex (.forbiddenCharacter c) (source.findIdx isForbiddenChar))
    | none =>
      match screen source with
      | some pattern => .error (.security (.forbiddenPattern pattern))
      | none => .ok ()

/-- The tokens of a source, with the end marker behind them. -/
def tokenize (source : String) (limits : SourceLimits := {}) : Except Fault (List Token) :=
  match checkSource limits source.toList with
  | .error fault => .error fault
  | .ok () => scan limits source.toList

end GuardedExpr
