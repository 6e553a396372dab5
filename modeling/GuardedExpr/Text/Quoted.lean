import GuardedExpr.Text.Plain

/-!
# Quoted text

A text between double quotes. The quote, the backslash and four controls have an escape of
two characters, every other character that is not plain is written by its code point, and
plain characters stand for themselves.
-/

namespace GuardedExpr.Quoted

/-- The letter that stands behind the backslash for the six characters
with a short escape. -/
def shortEscape? : Char → Option Char
  | '"' => some '"'
  | '\\' => some '\\'
  | '\n' => some 'n'
  | '\r' => some 'r'
  | '\t' => some 't'
  | '\x00' => some '0'
  | _ => none

/-- One character as it stands between the quotes. -/
def encodeChar (c : Char) : List Char :=
  match shortEscape? c with
  | some letter => ['\\', letter]
  | none =>
    if isPlain c then [c]
    else '\\' :: 'u' :: '\x7b' :: Nat.toDigits 16 c.toNat ++ ['\x7d']

def encode (text : List Char) : List Char :=
  text.flatMap encodeChar

@[simp] theorem encode_nil : encode [] = [] := rfl

@[simp] theorem encode_cons (c : Char) (text : List Char) :
    encode (c :: text) = encodeChar c ++ encode text := rfl

end GuardedExpr.Quoted

namespace GuardedExpr

/-- The text between double quotes, with its escapes. -/
def quoted (text : String) : String :=
  String.ofList ('"' :: Quoted.encode text.toList ++ ['"'])

end GuardedExpr
