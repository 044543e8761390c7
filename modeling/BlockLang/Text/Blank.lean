import BlockLang.Text.CodePoints

/-!
# Blank characters

The characters that surround a word without being part of it: the white-space characters together
with the four information separators. Trimming removes them from an end of a text.
-/

namespace BlockLang.Text

/-- The code points of white space and of the information separators. -/
def blanks : CodePoints :=
  [(0x9, 0xD), (0x1C, 0x20), (0x85, 0x85), (0xA0, 0xA0), (0x1680, 0x1680), (0x2000, 0x200A),
   (0x2028, 0x2029), (0x202F, 0x202F), (0x205F, 0x205F), (0x3000, 0x3000)]

/-- Is `c` white space or an information separator? -/
def isBlank (c : Char) : Bool := blanks.contains c

/-- A sequence without the items at its end that `p` accepts. -/
def dropEndWhile {α : Type} (p : α → Bool) (xs : List α) : List α :=
  (xs.reverse.dropWhile p).reverse

/-- A sequence without the items at either end that `p` accepts. -/
def trim {α : Type} (p : α → Bool) (xs : List α) : List α := dropEndWhile p (xs.dropWhile p)

end BlockLang.Text
