import BlockLang.Grammar.Program
import BlockLang.Tree.Assembly

/-!
# Rules of the grammar

Every construct of the grammar can be parsed by itself, from wherever the cursor stands. The rules
of blocks start behind the word that opens the block. Operators can also be parsed behind a first
operand that was assembled elsewhere; one that is no expression is refused by the first operator.
-/

namespace BlockLang

/-- A construct that can be parsed by itself. -/
inductive Rule where
  | program | block | data | group | action | run
  | field | parameter | fieldValue | dataInstance
  | instruction | create | declaration | statement | branch | foreach | loop
  | value | expression | term
  deriving DecidableEq, Repr, Inhabited

/-- Parses a construct to its node, when at most `limit` bodies may be open at once. -/
def Rule.parse (limit : Int) : Rule → Parse Node
  | program => return .program (← Parse.program limit)
  | block => return .block (← Parse.block limit)
  | data => return .block (← Parse.data)
  | group => return .block (← Parse.group)
  | action => return .block (← Parse.action limit)
  | run => return .block (← Parse.run limit)
  | field => return .field (← Parse.field)
  | parameter => return .parameter (← Parse.parameter)
  | fieldValue => return .fieldValue (← Parse.fieldValue)
  | dataInstance => return .dataInstance (← Parse.dataInstance)
  | instruction => return .instruction (← Parse.instruction limit)
  | create => return .instruction (← Parse.creation)
  | declaration => return .instruction (.declare (← Parse.declaration))
  | statement => return (← Parse.progression).node
  | branch => return .instruction (← Parse.branch (Parse.body limit))
  | foreach => return .instruction (← Parse.foreach (Parse.body limit))
  | loop => return .instruction (← Parse.loop (Parse.body limit))
  | value => return .expr (← Parse.value)
  | expression => return .expr (← Parse.expression)
  | term => return .expr (← Parse.term none)

namespace Parse

/-- The operators behind a first operand that is no expression: without one the operand stands, and
the first one refuses it as soon as its own operand has been read. -/
def refuse (admits : Operator → Bool) (operand : Parse Expr) (first : Datum) :
    Parse (Except Misfit Datum) := do
  match ← operatorStep admits operand with
  | none => return .ok first
  | some (op, _) => return .error (.cannotBe (.binary op) "lhs" first)

/-- A term behind a first operand. -/
def termBehind (first : Datum) : Parse (Except Misfit Datum) := do
  match first.expr? with
  | some e => return .ok (.node (.expr (← term (some e))))
  | none => refuse (!·.isAdditive) value first

/-- An expression behind a first operand. -/
def expressionBehind (first : Datum) : Parse (Except Misfit Datum) := do
  match first.expr? with
  | some e => return .ok (.node (.expr (← expressionFrom (some e))))
  | none =>
    match ← refuse (!·.isAdditive) value first with
    | .error m => return .error m
    | .ok first => refuse (·.isAdditive) (term none) first

end Parse

end BlockLang
