import BlockLang.Json.Basic

/-!
# Writing JSON

Two layouts: `pretty` gives every item a line of its own, two spaces deeper than what it belongs
to; `compact` is one line. Both write ASCII characters only.
-/

namespace BlockLang.Json

open BlockLang.Text

/-- A sixteen-bit unit as an escape. -/
def unitEscape (u : Nat) : List Char := '\\' :: 'u' :: hex 4 u

/-- How a character stands inside a string: itself if it is a visible ASCII character or a space,
by its letter if it has one, otherwise as one escape or as a surrogate pair of two. -/
def escape (c : Char) : List Char :=
  if c == '\x22' || c == '\\' then ['\\', c]
  else if ' ' ≤ c ∧ c ≤ '~' then [c]
  else if c == '\n' then ['\\', 'n']
  else if c == '\r' then ['\\', 'r']
  else if c == '\t' then ['\\', 't']
  else if c == '\x08' then ['\\', 'b']
  else if c == '\x0c' then ['\\', 'f']
  else if c.toNat < 0x10000 then unitEscape c.toNat
  else
    let n := c.toNat - 0x10000
    unitEscape (0xD800 + n / 0x400) ++ unitEscape (0xDC00 + n % 0x400)

/-- How a point stands inside a string. -/
def escapePoint : Point → List Char
  | .char c => escape c
  | .half u => unitEscape (Point.unit u)

/-- A string between its quotes. -/
def writeText (s : LooseText) : List Char :=
  '\x22' :: (s.points.flatMap escapePoint ++ ['\x22'])

/-- A real number; the numbers that are not finite are words. -/
def writeReal : Number.Real64 → List Char
  | .nan => "NaN".toList
  | .infinite negative => (if negative then "-Infinity" else "Infinity").toList
  | x => x.text.toList

/-- A new line at the depth `level`. -/
def newline (level : Nat) : List Char := '\n' :: List.replicate (2 * level) ' '

mutual

/-- The indented form of a value that stands at the depth `level`. -/
def pretty (level : Nat) : Json → List Char
  | null => "null".toList
  | bool b => (if b then "true" else "false").toList
  | int n => (toString n).toList
  | real x => writeReal x
  | text s => writeText s
  | array [] => ['[', ']']
  | array (item :: items) =>
    '[' :: (newline (level + 1) ++ pretty (level + 1) item ++ prettyItems (level + 1) items
      ++ newline level ++ [']'])
  | object [] => ['\x7b', '\x7d']
  | object ((k, v) :: members) =>
    '\x7b' :: (newline (level + 1) ++ writeText k ++ ':' :: ' ' :: pretty (level + 1) v
      ++ prettyMembers (level + 1) members ++ newline level ++ ['\x7d'])

/-- The further items of an array, each after a comma and on a line of its own. -/
def prettyItems (level : Nat) : List Json → List Char
  | [] => []
  | item :: items => ',' :: (newline level ++ pretty level item ++ prettyItems level items)

/-- The further members of an object, each after a comma and on a line of its own. -/
def prettyMembers (level : Nat) : List (LooseText × Json) → List Char
  | [] => []
  | (k, v) :: members =>
    ',' :: (newline level ++ writeText k ++ ':' :: ' ' :: pretty level v
      ++ prettyMembers level members)

end

mutual

/-- The form of a value on one line. -/
def compact : Json → List Char
  | null => "null".toList
  | bool b => (if b then "true" else "false").toList
  | int n => (toString n).toList
  | real x => writeReal x
  | text s => writeText s
  | array [] => ['[', ']']
  | array (item :: items) => '[' :: (compact item ++ compactItems items ++ [']'])
  | object [] => ['\x7b', '\x7d']
  | object ((k, v) :: members) =>
    '\x7b' :: (writeText k ++ ':' :: compact v ++ compactMembers members ++ ['\x7d'])

/-- The further items of an array, each after a comma. -/
def compactItems : List Json → List Char
  | [] => []
  | item :: items => ',' :: (compact item ++ compactItems items)

/-- The further members of an object, each after a comma. -/
def compactMembers : List (LooseText × Json) → List Char
  | [] => []
  | (k, v) :: members => ',' :: (writeText k ++ ':' :: compact v ++ compactMembers members)

end

end BlockLang.Json
