import BlockLang.Grammar.Program
import BlockLang.Text.Blank
import BlockLang.Tree.Assembly

/-!
# Writing expressions

The grammar has no parentheses, so an expression can be written only if its operators group the way
precedence groups them: no additive operator on the right of an additive one, and only values on the
right, and no additive operator on the left, of a multiplicative one.

A value is written as a text that reads back as that value. If its own text does not, because the
point in it would be taken for part of a number, one of its points is set apart by spaces, the
rightmost that will do.
-/

namespace BlockLang

open BlockLang.Text

/-- Why a tree has no source text. -/
inductive WriteError where
  /-- Something that is no statement was to be written as one. -/
  | notStatement (shown : String)
  /-- Something that is no instruction was to be written as one. -/
  | notInstruction (shown : String)
  /-- Something that is neither a declaration nor an evaluation was to be written as one. -/
  | notProgression (shown : String)
  /-- Something that is no expression was to be written as one. -/
  | notExpression (shown : String)
  /-- An additive operation stands on the right of another. -/
  | nestedOnTheRight (op : Operator)
  /-- An operand of a multiplicative operation binds more loosely than it. -/
  | looseOperand (op : Operator)
  /-- No source text reads as the value. -/
  | unwritable (text : String)
  deriving DecidableEq, Repr, Inhabited

namespace WriteError

/-- Is the error about what a tree is made of, rather than about how it would have to be written? -/
def isAboutType : WriteError → Bool
  | notStatement _ | notInstruction _ | notProgression _ | notExpression _ => true
  | nestedOnTheRight _ | looseOperand _ | unwritable _ => false

/-- The message of an error. -/
def message : WriteError → String
  | notStatement shown => s!"Cannot format {shown} as a statement"
  | notInstruction shown => s!"Not an instruction: {shown}"
  | notProgression shown => s!"Not a statement: {shown}"
  | notExpression shown => s!"Not an expression: {shown}"
  | nestedOnTheRight op => s!"Right-nested {(NodeKind.binary op).title} needs parentheses"
  | looseOperand op => s!"{(NodeKind.binary op).title} operand needs parentheses"
  | unwritable text => s!"Value {quoted text} cannot be written as BLOK source"

end WriteError

/-! ## Values -/

/-- Does a source text read as one value whose text is `text`, and as nothing more? -/
def readsAsValue (text source : String) : Bool :=
  match tokenize .canonical source with
  | .error _ => false
  | .ok tokens =>
    match Parse.valueText ⟨[], tokens, 0⟩ with
    | .error .. => false
    | .ok value c => value == text && c.peek.isNone

/-- The two sides of every point of a text, from the rightmost point to the leftmost. -/
def pointSplits : List Char → List (List Char × List Char)
  | [] => []
  | c :: cs =>
    (pointSplits cs).map (fun sides => (c :: sides.1, sides.2)) ++
      if c == '.' then [([], cs)] else []

/-- The texts to be tried for a value, in order: its own text, then the texts with one of the points
set apart, without blanks at the end. -/
def valueSpellings (text : String) : List String :=
  text :: (pointSplits text.toList).map fun sides =>
    String.ofList (dropEndWhile isBlank (sides.1 ++ [' ', '.', ' '] ++ sides.2))

/-- The source text of a value. -/
def valueSource (text : String) : Except WriteError String :=
  match (valueSpellings text).find? (readsAsValue text) with
  | some source => .ok source
  | none => .error (.unwritable text)

/-- The texts that are tried for a value, up to the first that reads as it. -/
def triedSpellings (text : String) : List String :=
  let spellings := valueSpellings text
  let failing := spellings.takeWhile (!readsAsValue text ·)
  spellings.take (failing.length + 1)

/-! ## Operations -/

/-- Is the expression an additive operation? -/
def Expr.isAdditive : Expr → Bool
  | value _ => false
  | binary op _ _ => op.isAdditive

/-- Is the expression a single value? -/
def Expr.isValue : Expr → Bool
  | value _ => true
  | binary .. => false

/-- Two operands around an operator. -/
def operationText (op : Operator) (lhs rhs : String) : String :=
  s!"{lhs} {op.char} {rhs}"

/-- The source text of an expression. -/
def Expr.source : Expr → Except WriteError String
  | value text => valueSource text
  | binary op lhs rhs =>
    if op.isAdditive then
      if rhs.isAdditive then .error (.nestedOnTheRight op)
      else do return operationText op (← lhs.source) (← rhs.source)
    else if lhs.isAdditive || !rhs.isValue then .error (.looseOperand op)
    else do return operationText op (← lhs.source) (← rhs.source)

/-- The source text of an operation whose operands are written by themselves, whether or not they
would be read as its operands. -/
def Expr.operationSource : Expr → Except WriteError String
  | binary op lhs rhs => do return operationText op (← lhs.source) (← rhs.source)
  | e => .error (.notExpression (Node.expr e).describe)

/-- The source text of a declaration, without its word. -/
def Declaration.source (d : Declaration) : Except WriteError String := do
  return s!"{d.name} = {← d.value.source}"

/-- The source text of a progression. -/
def Progression.source : Progression → Except WriteError String
  | assign d => d.source
  | evaluate e => e.source

end BlockLang
