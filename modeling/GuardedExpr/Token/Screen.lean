import GuardedExpr.Text.Blank
import GuardedExpr.Text.Case
import GuardedExpr.Text.WordChar

/-!
# The screen

Sources that hold certain patterns are refused before they are cut into tokens. Some
patterns are plain words in any ASCII case. The others are a name at the start of a
word, up to case folding, with an opening bracket or dot behind it and perhaps white
space between, or an arrow.

`screen` names the pattern it found: of the plain words the one that ends first in the
source, and without such a word the earliest of the other patterns in their list, wherever
it stands.
-/

namespace GuardedExpr

/-- Words that may not stand anywhere in a source. -/
def forbiddenWords : List String :=
  ["javascript:", "vbscript:", "data:text/html", "__proto__", "constructor", "prototype",
   "globalthis"]

/-- A pattern that is not a plain word. -/
inductive ForbiddenUse where
  /-- A call: the name, white space, and an opening parenthesis. -/
  | call (name : String)
  /-- A look into an object: the name, white space, and a dot or an opening bracket. -/
  | access (name : String)
  /-- An arrow of two characters. -/
  | arrow
deriving DecidableEq, Repr

/-- The forbidden uses, in the order in which one is chosen to be named. -/
def forbiddenUses : List ForbiddenUse :=
  [.call "eval", .call "function", .call "import", .call "require", .call "settimeout",
   .call "setinterval", .access "window", .access "document", .arrow]

namespace ForbiddenUse

def pattern : ForbiddenUse → String
  | .call name => "\\b" ++ name ++ "\\s*\\("
  | .access name => "\\b" ++ name ++ "\\s*[.\\[]"
  | .arrow => "=>"

/-- Whether `text` goes on with the name, white space and one of the
characters in `openers`. -/
def namedBefore (name : String) (openers : List Char) (text : List Char) : Bool :=
  match dropName? foldsTo name.toList text with
  | some rest => (rest.dropWhile isBlank).head?.any openers.contains
  | none => false

/-- Whether the pattern starts right here. `before` is the character in front of `text`; a
name has to start a word, so no word character may stand there. -/
def startsAt (use : ForbiddenUse) (before : Option Char) (text : List Char) : Bool :=
  match use with
  | .call name => !before.any isWordChar && namedBefore name ['('] text
  | .access name => !before.any isWordChar && namedBefore name ['.', '['] text
  | .arrow => ['=', '>'].isPrefixOf text

/-- Whether the pattern occurs in `text`, which stands behind `before`. -/
def occurs (use : ForbiddenUse) (before : Option Char) : List Char → Bool
  | [] => false
  | c :: text => use.startsAt before (c :: text) || occurs use (some c) text

end ForbiddenUse

/-- Whether `letter` and `c` are the same up to ASCII case, for a letter in lower case. -/
def sameLetter (letter c : Char) : Bool :=
  c.toLower == letter

/-- The forbidden word that ends first in a text. The characters already passed come in
reverse, so a word ends here if it is the start of them, read backwards. -/
def firstWord? (passed : List Char) : List Char → Option String
  | [] => none
  | c :: text =>
    match forbiddenWords.find? fun word =>
        (dropName? sameLetter word.toList.reverse (c :: passed)).isSome with
    | some word => some word
    | none => firstWord? (c :: passed) text

/-- The pattern for which a source is refused, if it holds one. -/
def screen (source : List Char) : Option String :=
  match firstWord? [] source with
  | some word => some word
  | none => (forbiddenUses.find? (·.occurs none source)).map ForbiddenUse.pattern

end GuardedExpr
