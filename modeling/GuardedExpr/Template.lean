/-!
# Templates

A template is text with placeholders in it: `{{`, some text on one line, and the first
`}}` behind it. Placeholders are found from left to right, and an opening that is not
closed on its line is plain text.
-/

namespace GuardedExpr

inductive Piece where
  | verbatim (c : Char)
  /-- A placeholder, by the text between its braces. -/
  | placeholder (inner : List Char)
deriving DecidableEq, Repr

namespace Template

/-- The text in front of the first closing braces, if they come on this line. -/
def upToClosing? : List Char → Option (List Char)
  | [] => none
  | '\n' :: _ => none
  | '\x7d' :: '\x7d' :: _ => some []
  | c :: text => (upToClosing? text).map (c :: ·)

/-- The text of the placeholder that starts right here, if one does. -/
def placeholder? : List Char → Option (List Char)
  | '\x7b' :: '\x7b' :: text => upToClosing? text
  | _ => none

/-- The pieces of a text whose first `taken` characters belong to a piece already made. -/
def piecesAfter (taken : Nat) : List Char → List Piece
  | [] => []
  | c :: text =>
    match taken with
    | taken + 1 => piecesAfter taken text
    | 0 =>
      match placeholder? (c :: text) with
      | some inner => .placeholder inner :: piecesAfter (inner.length + 3) text
      | none => .verbatim c :: piecesAfter 0 text

def pieces (template : List Char) : List Piece :=
  piecesAfter 0 template

end Template

end GuardedExpr
