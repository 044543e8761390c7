import BlockLang.Grammar.Instruction
import BlockLang.Token.OfText

/-!
# Parsing programs

A program is a list of blocks, each opened by its word. Parsing stops at the first violation, and
there is no partial tree.
-/

namespace BlockLang.Parse

/-! ## Members of blocks -/

/-- `NAME: TYPE` in a data structure. -/
def field : Parse Field := do
  let name ← expectSymbol .missingName "Expected name for field."
  let _ ← expect (.delimiter .colon) s!"before type of field '{name}'"
  return ⟨name, ← expectSymbol .missingType s!"Expected type for field with name: {name}."⟩

/-- `NAME: TYPE` among the parameters of a group. -/
def parameter : Parse Parameter := do
  let name ← expectSymbol .missingName "Expected name for parameter."
  let _ ← expect (.delimiter .colon) s!"before type of parameter '{name}'"
  return ⟨name, ← expectSymbol .missingType s!"Expected type for parameter with name: {name}."⟩

/-- `NAME = VALUE` in a data instance. -/
def fieldValue : Parse FieldValue := do
  let name ← expectSymbol .missingName "Expected name of field."
  let _ ← expect (.delimiter .equal) s!"before value of field '{name}'"
  return ⟨name, ← expectSymbol .missingName s!"Expected value for field: {name}."⟩

/-- `NAME(field value, ...)`. -/
def dataInstance : Parse DataInstance := do
  let name ← expectSymbol .missingName "Expected name of data structure to instanciate."
  let _ ← expect (.delimiter .leftParen) "to open data instanciation values"
  return ⟨name, ← separated (.delimiter .rightParen) fieldValue "data instanciation values"⟩

/-! ## Blocks, each after its word -/

/-- `NAME { field, ... }`. -/
def data : Parse Block := do
  let name ← expectSymbol .missingName "Data structure requires a name."
  let _ ← expect (.delimiter .leftBrace) "to open data structure body"
  return .data name (← separated (.delimiter .rightBrace) field "data structure body")

/-- `NAME(parameter, ...) { data instance ... }`. -/
def group : Parse Block := do
  let name ← expectSymbol .missingName "Group requires a name."
  let _ ← expect (.delimiter .leftParen) "to open group parameters"
  let parameters ← separated (.delimiter .rightParen) parameter "group parameters"
  let _ ← expect (.delimiter .leftBrace) "to open group body"
  return .group name parameters (← separated (.delimiter .rightBrace) dataInstance "group body")

/-- `NAME body`. -/
def action (limit : Int) : Parse Block := do
  let name ← expectSymbol .missingName "Do requires a name."
  return .action name (← body limit "do body")

/-- One action to run, or a token in the list of actions that is passed over. -/
def actionStep : Parse (Option (Option String)) := do
  if ← sees (.delimiter .rightParen) then return none
  let t ← requireMore "list of actions to do"
  skip
  return some (if t.kind = .symbol then some t.value else none)

/-- `(action ...) body`. Tokens between the actions that are no symbols are passed over. -/
def run (limit : Int) : Parse Block := do
  let _ ← expect (.delimiter .leftParen) "to open list of actions to do"
  let found ← many actionStep
  skip
  return .run (found.filterMap id) (← body limit "run body")

/-- A block. -/
def block (limit : Int) : Parse Block := do
  match ← next with
  | none => throw ⟨.noTokens, "No token provided.", none, 0, 0⟩
  | some t =>
    match t.kind with
    | .keyword .data => data
    | .keyword .group => group
    | .keyword .doWord => action limit
    | .keyword .run => run limit
    | _ => throw (.about .unexpectedToken s!"Unexpected token: {t.value}" t)

/-- One block of a program; nothing at the end of the input. -/
def blockStep (limit : Int) : Parse (Option Block) := do
  match ← peek with
  | none => return none
  | some _ => return some (← block limit)

/-- A program. -/
def program (limit : Int) : Parse Program := return ⟨← many (blockStep limit)⟩

/-- The first tokens of the blocks that a parse of a program begins to read. -/
def blockHeads (limit : Int) (c : Cursor) : List Token :=
  match c.peek with
  | none => []
  | some t =>
    match block limit c with
    | .error .. => [t]
    | .ok _ c' => if c'.rest.length < c.rest.length then t :: blockHeads limit c' else [t]
termination_by c.rest.length

end BlockLang.Parse

namespace BlockLang

/-- How many bodies may be open at once unless another limit is given. -/
def defaultLimit : Int := 200

namespace Program

/-- The program that a token list denotes. -/
def ofTokens (limit : Int) (tokens : List Token) : Except SyntaxError Program :=
  match Parse.program limit ⟨[], tokens, 0⟩ with
  | .ok p _ => .ok p
  | .error e _ => .error e

/-- The program that a source text denotes. -/
def ofSource (v : Vocabulary) (limit : Int) (source : String) :
    Except SyntaxError Program := do
  ofTokens limit (← tokenize v source)

end Program

end BlockLang
