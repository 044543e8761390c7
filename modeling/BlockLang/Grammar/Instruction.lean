import BlockLang.Grammar.Expr

/-!
# Parsing instructions

An instruction is recognised by its first word. Bodies hold instructions, which may have bodies;
a body is told how many further bodies may be opened inside it, and fails at its opening brace when
it is itself one too many.
-/

namespace BlockLang.Parse

/-- `[let] NAME = expression`. -/
def declaration : Parse Declaration := do
  if ← sees (.keyword .letWord) then skip
  let name ← expectSymbol .missingName "Expected name of variable to declare."
  let _ ← expect (.delimiter .equal) "before declaration value"
  return ⟨name, ← expression⟩

/-- The last clause of a loop header: a declaration, with or without its word, or an expression.
The first value is read before the two are told apart, so a value that holds a point is refused as
a name. -/
def progression : Parse Progression := do
  if ← sees (.keyword .letWord) then return .assign (← declaration)
  let first ← valueText
  match ← peek with
  | some t =>
    if t.kind = .delimiter .equal then
      if first.toList.contains '.' then
        throw (.about .missingName s!"Expected name of variable to declare. Got '{first}'." t)
      skip
      return .assign ⟨first, ← expression⟩
    else return .evaluate (← expressionFrom (some (.value first)))
  | none => return .evaluate (← expressionFrom (some (.value first)))

/-- One argument of a creation, or a token between arguments that is passed over. -/
def argumentStep : Parse (Option (Option String)) := do
  if ← sees (.delimiter .rightParen) then return none
  let t ← requireMore "group creation parameters"
  if t.kind = .symbol then return some (some (← valueText))
  skip
  return some none

/-- `create NAME(value ...)`. Tokens between the values that are no symbols are passed over. -/
def creation : Parse Instruction := do
  skip
  let group ← expectSymbol .missingName "Expected the name of a group to create."
  let _ ← expect (.delimiter .leftParen) "to open group creation parameters"
  let found ← many argumentStep
  skip
  return .create group (found.filterMap id)

/-- One name of a loop over collections; nothing at the word that ends the names. -/
def loopNameStep : Parse (Option String) := do
  if ← sees (.keyword .inWord) then return none
  let _ ← requireMore "foreach values"
  skipComma
  return some (← expectSymbol .missingName "Expected a value name in foreach.")

/-- One collection of a loop; nothing at the brace that opens the body. -/
def collectionStep : Parse (Option Expr) := do
  if ← sees (.delimiter .leftBrace) then return none
  let _ ← requireMore "foreach collections"
  skipComma
  return some (← expression)

section

variable (inner : String → Parse (List Instruction))

/-- `if expression body`. -/
def branch : Parse Instruction := do
  skip
  let condition ← expression
  return .branch condition (← inner "if body")

/-- `foreach NAME, ... in expression, ... body`. -/
def foreach : Parse Instruction := do
  skip
  let t ← requireMore "foreach"
  if t.kind ≠ .symbol then
    throw (.about .unexpectedToken s!"Unexpected token in foreach: {t.value}." t)
  let names ← many loopNameStep
  skip
  let collections ← many collectionStep
  return .foreach names collections (← inner "foreach body")

/-- `for declaration; expression; progression body`. -/
def loop : Parse Instruction := do
  skip
  let start ← declaration
  let _ ← expect (.delimiter .semicolon) "after for declaration"
  let condition ← expression
  let _ ← expect (.delimiter .semicolon) "after for condition"
  let step ← progression
  return .loop start condition step (← inner "for body")

/-- An instruction, with a parse for the bodies inside it. -/
def instructionWith : Parse Instruction := do
  let t ← requireMore "instruction"
  match t.kind with
  | .keyword .create => creation
  | .keyword .ifWord => branch inner
  | .keyword .foreach => foreach inner
  | .keyword .forWord => loop inner
  | .keyword .letWord => return .declare (← declaration)
  | _ => throw (.about .expectedInstruction s!"Expected an instruction, got '{t.value}'." t)

/-- One instruction of a body; nothing at its closing brace. -/
def bodyStep (what : String) : Parse (Option Instruction) := do
  if ← sees (.delimiter .rightBrace) then return none
  let _ ← requireMore what
  return some (← instructionWith inner)

end

/-- The error of a body that is one too many. -/
def tooDeep (what : String) (limit : Int) (brace : Token) : SyntaxError :=
  .about .nestingTooDeep s!"{what} is nested more than {limit} levels deep." brace

/-- A body in braces, when `room` more bodies may be open at once. -/
def bodyWithin (limit : Int) : (room : Nat) → (what : String) → Parse (List Instruction)
  | 0, what => do
    let brace ← expect (.delimiter .leftBrace) s!"to open {what}"
    deeper (throw (tooDeep what limit brace))
  | room + 1, what => do
    let _ ← expect (.delimiter .leftBrace) s!"to open {what}"
    let instructions ← deeper (many (bodyStep (bodyWithin limit room) what))
    skip
    return instructions

/-- A body in braces, when at most `limit` bodies may be open at once. -/
def body (limit : Int) (what : String) : Parse (List Instruction) :=
  bodyWithin limit limit.toNat what

/-- An instruction, when at most `limit` bodies may be open at once. -/
def instruction (limit : Int) : Parse Instruction := instructionWith (body limit)

end BlockLang.Parse
