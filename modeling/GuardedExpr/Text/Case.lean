/-!
# Letter case

Two ways to ignore case. `asciiLower` maps the 26 capital letters and leaves all other
characters alone. `foldsTo` asks for simple case folding into a lower-case ASCII letter,
which two characters beyond ASCII also reach: the long s and the Kelvin sign.
-/

namespace GuardedExpr

/-- The text with its ASCII capitals in lower case. -/
def asciiLower (text : List Char) : List Char :=
  text.map Char.toLower

/-- Whether `c` is the lower-case ASCII letter `letter` up to simple case folding. -/
def foldsTo (letter c : Char) : Bool :=
  c.toLower == letter || (letter == 's' && c == 'ſ') || (letter == 'k' && c == '\u212A')

/-- What follows `name` in `text` if the text starts with it up to `same`, which compares a
letter of the name with a character. -/
def dropName? (same : Char → Char → Bool) : List Char → List Char → Option (List Char)
  | [], text => some text
  | _ :: _, [] => none
  | letter :: name, c :: text => if same letter c then dropName? same name text else none

@[simp] theorem dropName?_nil (same : Char → Char → Bool) (text : List Char) :
    dropName? same [] text = some text := rfl

theorem dropName?_cons (same : Char → Char → Bool) (letter c : Char)
    (name text : List Char) :
    dropName? same (letter :: name) (c :: text) =
      if same letter c then dropName? same name text else none := rfl

/-- Whether `part` stands somewhere in `text`, character for character. -/
def occursIn (part : List Char) : List Char → Bool
  | [] => part.isEmpty
  | c :: text => part.isPrefixOf (c :: text) || occursIn part text

end GuardedExpr
