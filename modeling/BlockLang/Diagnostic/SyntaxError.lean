import BlockLang.Token.Basic

/-!
# Errors in a source text

Reading a text fails at the first violation, with a tag from a small taxonomy, a message, the
offending token if there is one, and a location. The location is the token's unless another is
given, and line zero stands for an unknown one.
-/

namespace BlockLang

namespace SyntaxError

/-- What kind of violation an error reports. -/
inductive Tag where
  /-- Some violation. -/
  | general
  /-- A text that cannot be cut into tokens. -/
  | lexical
  /-- Another token was required. -/
  | unexpectedToken
  /-- An instruction was required. -/
  | expectedInstruction
  /-- A name is absent. -/
  | missingName
  /-- A type is absent. -/
  | missingType
  /-- A delimiter is absent. -/
  | missingDelimiter
  /-- The input ended inside a construct. -/
  | incompleteInput
  /-- The input ended before a construct. -/
  | noTokens
  /-- Instruction bodies are nested beyond the limit. -/
  | nestingTooDeep
  deriving DecidableEq, Repr, Inhabited

namespace Tag

/-- All tags. -/
def all : List Tag :=
  [general, lexical, unexpectedToken, expectedInstruction, missingName, missingType,
    missingDelimiter, incompleteInput, noTokens, nestingTooDeep]

/-- The name of a tag, as diagnostics print it. -/
def name : Tag → String
  | general => "BlokSyntaxError"
  | lexical => "LexError"
  | unexpectedToken => "UnexpectedToken"
  | expectedInstruction => "ExpectedInstruction"
  | missingName => "MissingName"
  | missingType => "MissingType"
  | missingDelimiter => "MissingDelimiter"
  | incompleteInput => "IncompleteInput"
  | noTokens => "NoTokens"
  | nestingTooDeep => "NestingTooDeep"

/-- The tag of a name. -/
def ofName? (s : String) : Option Tag := all.find? (·.name == s)

theorem ofName?_name (t : Tag) : ofName? t.name = some t := by
  cases t <;> decide

/-- The tags that a violation falls under, from its own to the most general. -/
def ancestry : Tag → List Tag
  | general => [general]
  | expectedInstruction => [expectedInstruction, unexpectedToken, general]
  | noTokens => [noTokens, incompleteInput, general]
  | tag => [tag, general]

end Tag

end SyntaxError

/-- An error in a source text. -/
structure SyntaxError where
  tag : SyntaxError.Tag
  message : String
  token : Option Token := none
  line : Int := 0
  col : Int := 0
  deriving DecidableEq, Repr, Inhabited

namespace SyntaxError

/-- An error with a part of its location given; what is not given is taken from the token, and is
zero without one. -/
def make (tag : Tag) (message : String) (token : Option Token) (line col : Option Int) :
    SyntaxError where
  tag := tag
  message := message
  token := token
  line := line.getD (token.elim 0 (·.line))
  col := col.getD (token.elim 0 (·.col))

/-- An error about a token. -/
def about (tag : Tag) (message : String) (token : Token) : SyntaxError :=
  ⟨tag, message, some token, token.line, token.col⟩

/-- An error at a location, about no token. -/
def located (tag : Tag) (message : String) (l : Location) : SyntaxError :=
  ⟨tag, message, none, l.line, l.col⟩

end SyntaxError

end BlockLang
