import BlockLang.Json.Writer
import BlockLang.Source.Page
import BlockLang.Text.StandIns
import BlockLang.Tree.Outline

/-!
# Forms of output

A program is shown as an outline, as data, or as source text in the canonical layout. What is shown
of a loose text has the halves in it again: by their codes in an outline, where texts are quoted,
and in data; as themselves in source text.
-/

namespace BlockLang

open BlockLang.Text

/-- A form of output. -/
inductive OutputForm where
  | outline | data | source
  deriving DecidableEq, Repr, Inhabited

namespace OutputForm

/-- The forms with the words that select them. -/
def words : List (String × OutputForm) :=
  [("tree", outline), ("json", data), ("source", source)]

/-- The form that a word selects. -/
def ofWord? (word : String) : Option OutputForm := words.lookup word

end OutputForm

/-- A text without the line feeds at its end. -/
def dropFinalNewlines (s : String) : String :=
  String.ofList (dropEndWhile (· == '\n') s.toList)

/-- A program in a form of output. -/
def Program.render (p : Program) : OutputForm → Except WriteError String
  | .outline => .ok ((Node.program p).outline 0)
  | .data => .ok (String.ofList ((Node.program p).json.pretty 0))
  | .source => p.source.map dropFinalNewlines

/-- A program that was read in disguise, in a form of output. -/
def Program.shown (s : StandIns) (p : Program) (form : OutputForm) : Except WriteError LooseText :=
  match form with
  | .outline => .ok (s.reveal ((Node.program p).outline 0)).escaped
  | .data => .ok (String.ofList (((Node.program p).json.mapTexts s.reveal).pretty 0))
  | .source => (p.render .source).map fun text => s.reveal (.ofString text)

end BlockLang
