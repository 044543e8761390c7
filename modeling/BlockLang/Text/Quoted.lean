import BlockLang.Text.Printable

/-!
# Quoted text

A text is shown between quote marks, with every character that could be misread escaped, so that
the quoted form never holds a raw line break and never ends early.
-/

namespace BlockLang.Text

/-- The last `width` hexadecimal digits of `n`, in lower case. -/
def hex : Nat → Nat → List Char
  | 0, _ => []
  | width + 1, n => hex width (n / 16) ++ [Nat.digitChar (n % 16)]

namespace Quoted

/-- The mark around a text: an apostrophe, unless only a double quote keeps the text unescaped. -/
def mark (cs : List Char) : Char :=
  if cs.contains '\x27' && !cs.contains '\x22' then '\x22' else '\x27'

/-- How the character `c` is written between marks `q`: the mark and the backslash after a
backslash, line feed, carriage return and tab by their letters, any other character that is not
printable by the shortest of its two-, four- and eight-digit codes. -/
def escape (q c : Char) : List Char :=
  if c == q || c == '\\' then ['\\', c]
  else if c == '\n' then ['\\', 'n']
  else if c == '\r' then ['\\', 'r']
  else if c == '\t' then ['\\', 't']
  else if isPrintable c then [c]
  else if c.toNat < 0x100 then '\\' :: 'x' :: hex 2 c.toNat
  else if c.toNat < 0x10000 then '\\' :: 'u' :: hex 4 c.toNat
  else '\\' :: 'U' :: hex 8 c.toNat

/-- The quoted form of a text, as characters. -/
def encode (cs : List Char) : List Char :=
  mark cs :: (cs.flatMap (escape (mark cs)) ++ [mark cs])

end Quoted

/-- The quoted form of a text. -/
def quoted (s : String) : String := String.ofList (Quoted.encode s.toList)

end BlockLang.Text
