import BlockLang.Diagnostic.SyntaxError
import BlockLang.Text.Lines

/-!
# Error contexts

A context places an error in a named source: the name, the line and the column, and the lines
around it. It is shown as the location, the numbered lines with a marker under the column, and the
tag with its message.
-/

namespace BlockLang

open BlockLang.Text

/-- Where an error stands in a source. The snippet starts two lines above it. -/
structure ErrorContext where
  file : String
  line : Int
  column : Int
  snippet : Option String := none
  deriving DecidableEq, Repr, Inhabited

namespace ErrorContext

/-- The number of the first line of a snippet around `line`. -/
def firstLine (line : Int) : Int := max 1 (line - 2)

/-- The number of leading items that an upper end stands for: a negative one counts from the
back. -/
def upTo (length : Nat) (stop : Int) : Nat :=
  if stop < 0 then (length + stop).toNat else stop.toNat

/-- The lines of a source from two above `line` to two below, as far as there are any. -/
def excerpt (source : String) (line : Int) : List String :=
  let ls := lines source
  let stop := min (ls.length : Int) (line + 2)
  (ls.take (upTo ls.length stop)).drop (firstLine line - 1).toNat

/-- The context of a position in a source, with the lines around it. -/
def ofSource (file source : String) (line column : Int) : ErrorContext :=
  ⟨file, line, column, some (unlines (excerpt source line))⟩

/-- What stands before each line of a snippet: its number, right-aligned in four places, and a
bar. -/
def margin (number : Int) : String := padLeft 4 (toString number) ++ " | "

/-- The line that marks `column` under a line with the margin of `number`. -/
def marker (number column : Int) : String :=
  spaces ((margin number).length + column - 1) ++ "^^^"

/-- Lines with their numbers from `number` on, the marker below the line `line`. -/
def annotate (line column : Int) : Int → List String → List String
  | _, [] => []
  | number, text :: texts =>
    (margin number ++ text) ::
      (if number = line then [marker number column] else []) ++
        annotate line column (number + 1) texts

/-- The numbered and marked snippet; nothing for no snippet or an empty one. -/
def body (c : ErrorContext) : String :=
  match c.snippet with
  | none | some "" => ""
  | some snippet => unlines (annotate c.line c.column (firstLine c.line) (lines snippet))

/-- The name, line and column of the position. -/
def place (c : ErrorContext) : String := s!"{c.file}:{c.line}:{c.column}"

/-- The position, followed by the snippet if there is one. -/
def text (c : ErrorContext) : String :=
  match c.snippet with
  | none | some "" => c.place
  | some _ => c.place ++ "\n" ++ c.body

end ErrorContext

namespace SyntaxError

/-- The context of an error in a source. An error without a line has neither a position nor a
snippet; a missing column counts as the first. -/
def context (e : SyntaxError) (file source : String) : ErrorContext :=
  if e.line = 0 then ⟨file, 0, 0, none⟩
  else .ofSource file source e.line (if e.col = 0 then 1 else e.col)

/-- The whole diagnostic: the message alone, or the context, the tag and the message. -/
def diagnostic (e : SyntaxError) : Option ErrorContext → String
  | none => e.message
  | some c => s!"{c.text}\n{e.tag.name}: {e.message}"

end SyntaxError

end BlockLang
