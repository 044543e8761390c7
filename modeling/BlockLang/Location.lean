/-!
# Locations

A location is a line and a column, both counted from one at the start of a text. Reading a line
feed moves to the first column of the next line, reading any other character one column on.
-/

namespace BlockLang

/-- A line and a column. -/
structure Location where
  line : Int
  col : Int
  deriving DecidableEq, Repr, Inhabited

namespace Location

/-- The location of the first character of a text. -/
def start : Location := ⟨1, 1⟩

/-- The location after the character `c` at `l`. -/
def next (l : Location) (c : Char) : Location :=
  if c == '\n' then ⟨l.line + 1, 1⟩ else ⟨l.line, l.col + 1⟩

/-- The location after the characters `cs` from `l` on. -/
def after (l : Location) (cs : List Char) : Location := cs.foldl next l

/-- Reading two texts in turn is reading the one they make up. -/
theorem after_append (l : Location) (cs ds : List Char) :
    l.after (cs ++ ds) = (l.after cs).after ds :=
  List.foldl_append

end Location

end BlockLang
