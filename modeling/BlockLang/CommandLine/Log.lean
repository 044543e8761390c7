import BlockLang.Aliases.File
import BlockLang.Source.Page
import BlockLang.Tree.Node

/-!
# The log of a run

What a verbose run tells about its steps, a line each: the keyword file, every text that was cut
into tokens, every block that was begun, and the sizes of what was read. Writing source text cuts
texts too, namely those that are tried for values.
-/

namespace BlockLang.CommandLine

open BlockLang.Text

/-- The part of the tool that a line of the log comes from. -/
inductive Channel where
  | tool | lexer | parser
  deriving DecidableEq, Repr, Inhabited

/-- The name of a channel. -/
def Channel.name : Channel → String
  | tool => "blok.blok_cli"
  | lexer => "blok.blok_lexer"
  | parser => "blok.blok_parser"

/-- A line of the log. -/
def logLine (channel : Channel) (text : String) : String := s!"DEBUG {channel.name}: {text}\n"

namespace Log

/-- The keyword file `path` was taken over. -/
def keywords (aliases : Aliases) (path : LooseText) : String :=
  logLine .tool s!"loaded {aliases.words.length} keyword aliases from {path.escaped}"

/-- A text was cut into tokens. -/
def tokenized (source : String) (tokens : List Token) : String :=
  logLine .lexer s!"tokenized {source.length} characters into {tokens.length} tokens"

/-- A block was begun at the token `t`. -/
def block (t : Token) : String :=
  logLine .parser s!"parsing {t.kind.name} block at {t.line}:{t.col}"

/-- All blocks were read. -/
def blocks (p : Program) : String :=
  logLine .parser s!"parsed {p.blocks.length} top-level blocks"

/-- The source called `name` was read. -/
def program (name : LooseText) (p : Program) : String :=
  logLine .tool
    s!"parsed {name.escaped}: {p.blocks.length} blocks, {Node.count [Node.program p]} nodes"

/-- The texts tried for a value that could be cut into tokens. -/
def valueTexts (text : String) : String :=
  String.join ((triedSpellings text).map fun source =>
    match tokenize .canonical source with
    | .ok tokens => tokenized source tokens
    | .error _ => "")

/-- The texts tried for the values of a program, in the order in which they are written. -/
def values (p : Program) : String :=
  String.join ((Node.program p).walk.map fun
    | .expr (.value text) => valueTexts text
    | _ => "")

end Log

end BlockLang.CommandLine
