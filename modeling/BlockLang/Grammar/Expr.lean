import BlockLang.Grammar.Cursor
import BlockLang.Tree.Basic

/-!
# Parsing expressions

Multiplicative operators bind tighter than additive ones, and operators of one strength group to
the left. A value is a symbol, or two symbols joined by a point; a point with no symbol behind it
belongs to the value too.
-/

namespace BlockLang.Parse

/-- The text of a value. -/
def valueText : Parse String := do
  match ← peek with
  | none => failIncomplete "Expected a value, got end of input."
  | some t =>
    if t.kind = .symbol then
      skip
      if ← sees (.delimiter .dot) then
        skip
        match ← peek with
        | some member =>
          if member.kind = .symbol then
            skip
            return t.value ++ "." ++ member.value
          else return t.value ++ "."
        | none => return t.value ++ "."
      else return t.value
    else
      throw (.about .unexpectedToken s!"Expected a value, got '{t.value}'." t)

/-- A value as an expression. -/
def value : Parse Expr := return .value (← valueText)

/-- An operator that `admits` accepts, and the operand after it; nothing if the next token is no
such operator. -/
def operatorStep (admits : Operator → Bool) (operand : Parse Expr) :
    Parse (Option (Operator × Expr)) := do
  match (← get).peekKind with
  | some (.operator op) =>
    if admits op then
      skip
      return some (op, ← operand)
    else return none
  | _ => return none

/-- Operands joined to a first one, from the left. -/
def joinLeft (first : Expr) (tail : List (Operator × Expr)) : Expr :=
  tail.foldl (fun lhs step => .binary step.1 lhs step.2) first

/-- Values joined by multiplicative operators, the first of which may have been read already. -/
def term (first : Option Expr) : Parse Expr := do
  let lhs ← match first with
    | some e => pure e
    | none => value
  return joinLeft lhs (← many (operatorStep (!·.isAdditive) value))

/-- Terms joined by additive operators, the first value of which may have been read already. -/
def expressionFrom (first : Option Expr) : Parse Expr := do
  let lhs ← term first
  return joinLeft lhs (← many (operatorStep (·.isAdditive) (term none)))

/-- An expression. -/
def expression : Parse Expr := expressionFrom none

end BlockLang.Parse
