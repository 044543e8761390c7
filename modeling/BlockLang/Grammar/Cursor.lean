import BlockLang.Diagnostic.SyntaxError
import BlockLang.Token.Stream

/-!
# Reading tokens

A cursor stands between the tokens that have been read and those that are left, and counts the
instruction bodies that are open. A parse moves it and may fail; a failed parse leaves the cursor
where it was stopped. Parses look at one token ahead and never move back.

`many` repeats a step for as long as it finds something. A step that finds something has to read a
token, or the repetition would go on for ever. One that does not is an error of its own, which no
parse of the grammar comes to.
-/

namespace BlockLang

/-- A place between tokens. -/
structure Cursor where
  /-- The tokens read so far, the last one first. -/
  read : List Token := []
  /-- The tokens that are left. -/
  rest : List Token
  /-- The number of open instruction bodies. -/
  depth : Nat := 0
  deriving DecidableEq, Repr, Inhabited

namespace Cursor

/-- The number of tokens read. -/
def position (c : Cursor) : Nat := c.read.length

/-- The last token read. -/
def last (c : Cursor) : Option Token := c.read.head?

/-- The next token, if the input has not ended. -/
def peek (c : Cursor) : Option Token := Token.first? c.rest

/-- The kind of the next token. -/
def peekKind (c : Cursor) : Option Kind := c.peek.map (·.kind)

/-- Is the next token of the kind `k`? -/
def sees (c : Cursor) (k : Kind) : Bool := c.peekKind == some k

/-- The cursor behind the next token; the same cursor at the end of the input. -/
def advance (c : Cursor) : Cursor :=
  match c.rest with
  | [] => c
  | t :: rest => if t.kind = .endOfInput then c else { c with read := t :: c.read, rest := rest }

/-- The error of an input that ended too early, just after the last token read. -/
def incomplete (c : Cursor) (message : String) : SyntaxError :=
  match c.last with
  | none => ⟨.incompleteInput, message, none, 0, 0⟩
  | some t => ⟨.incompleteInput, message, none, t.line, t.col + t.value.length⟩

end Cursor

/-- A parse: it moves the cursor, and returns something or fails. -/
abbrev Parse := EStateM SyntaxError Cursor

namespace Parse

variable {α : Type}

/-- The next token, if the input has not ended. -/
def peek : Parse (Option Token) := return (← get).peek

/-- Is the next token of the kind `k`? -/
def sees (k : Kind) : Parse Bool := return (← get).sees k

/-- Reads the next token, if the input has not ended. -/
def next : Parse (Option Token) := do
  let c ← get
  set c.advance
  return c.peek

/-- Reads past the next token. -/
def skip : Parse Unit := modify Cursor.advance

/-- Fails because the input has ended. -/
def failIncomplete (message : String) : Parse α := do
  throw ((← get).incomplete message)

/-- Requires that the input has not ended inside `what`. -/
def requireMore (what : String) : Parse Token := do
  match ← peek with
  | some t => return t
  | none => failIncomplete s!"Unexpected end of input in {what}."

/-- Reads a token that has to be of the kind `k`; `what` says what it is there for. -/
def expect (k : Kind) (what : String) : Parse Token := do
  match ← peek with
  | none => failIncomplete s!"Expected '{k.spelling}' {what}, got end of input."
  | some t =>
    if t.kind = k then
      skip
      return t
    else
      throw (.about .missingDelimiter
        s!"Expected '{k.spelling}' {what}, got '{t.value}'." t)

/-- Reads a symbol and returns its text. -/
def expectSymbol (tag : SyntaxError.Tag) (message : String) : Parse String := do
  match ← peek with
  | none => failIncomplete message
  | some t =>
    if t.kind = .symbol then
      skip
      return t.value
    else
      throw (.about tag s!"{message} Got '{t.value}'." t)

/-- Reads one comma, if the next token is one. -/
def skipComma : Parse Unit := do
  if ← sees (.delimiter .comma) then skip

/-- The error of a repetition that would go on for ever. -/
def stalled : SyntaxError := ⟨.general, "A repetition reads nothing.", none, 0, 0⟩

/-- Repeats a step until it finds nothing, and returns what it found. With a step that finds
something without reading a token the repetition is stalled. -/
def many (step : Parse (Option α)) (c : Cursor) : EStateM.Result SyntaxError Cursor (List α) :=
  match step c with
  | .error e c' => .error e c'
  | .ok none c' => .ok [] c'
  | .ok (some a) c' =>
    if c'.rest.length < c.rest.length then
      match many step c' with
      | .error e c'' => .error e c''
      | .ok as c'' => .ok (a :: as) c''
    else .error stalled c'
termination_by c.rest.length

/-- One item of a list that ends with a token of the kind `close`, with a comma before it allowed;
nothing at the end of the list. -/
def separatedStep (close : Kind) (item : Parse α) (what : String) : Parse (Option α) := do
  if ← sees close then return none
  let _ ← requireMore what
  if ← sees (.delimiter .comma) then
    skip
    if ← sees close then return none
    let _ ← requireMore what
  return some (← item)

/-- Items up to a token of the kind `close`. Commas before, between and after the items may be left
out. -/
def separated (close : Kind) (item : Parse α) (what : String) : Parse (List α) := do
  let items ← many (separatedStep close item what)
  skip
  return items

/-- Runs a parse one body deeper. The body counts as closed afterwards, also if the parse fails. -/
def deeper (p : Parse α) (c : Cursor) : EStateM.Result SyntaxError Cursor α :=
  match p { c with depth := c.depth + 1 } with
  | .ok a c' => .ok a { c' with depth := c'.depth - 1 }
  | .error e c' => .error e { c' with depth := c'.depth - 1 }

end Parse

end BlockLang
