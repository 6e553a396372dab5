import GuardedExpr.Text.CharSet

/-!
# White space

The 25 characters with the Unicode property White_Space. They separate tokens, and they
are what trimming takes off a placeholder, a configuration line or a numeral in a string.
-/

namespace GuardedExpr

/-- The characters with the property White_Space. -/
def blanks : CharSet :=
  [(0x9, 0xD), (0x20, 0x20), (0x85, 0x85), (0xA0, 0xA0), (0x1680, 0x1680), (0x2000, 0x200A),
   (0x2028, 0x2029), (0x202F, 0x202F), (0x205F, 0x205F), (0x3000, 0x3000)]

def isBlank (c : Char) : Bool :=
  blanks.contains c

/-- The text without the white space at its two ends. -/
def trim (text : List Char) : List Char :=
  ((text.dropWhile isBlank).reverse.dropWhile isBlank).reverse

end GuardedExpr
