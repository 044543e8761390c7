import BlockLang.Source.Expr

/-!
# Writing programs

A page takes the lines of a source text one after the other, at the current depth of indentation,
four spaces to a level. Instructions stand on lines of their own; members are separated by commas;
an empty body is a pair of braces; a blank line stands between blocks. Writing that fails leaves
the lines already written and the depth already reached.
-/

namespace BlockLang

/-- The lines of a source text so far, and the depth of the next line. -/
structure Page where
  lines : List String := []
  indent : Nat := 0
  deriving DecidableEq, Repr, Inhabited

/-- Something written to a page. -/
abbrev Write := EStateM WriteError Page

namespace Page

/-- What the next line is indented by. -/
def margin (p : Page) : String := String.ofList (List.replicate (4 * p.indent) ' ')

/-- The text of the lines, each ended by a line feed. -/
def text (p : Page) : String :=
  if p.lines.isEmpty then "" else "\n".intercalate p.lines ++ "\n"

end Page

namespace Write

/-- Writes an empty line. -/
def blank : Write Unit := modify fun p => { p with lines := p.lines ++ [""] }

/-- Writes a line at the current depth. -/
def line (s : String) : Write Unit :=
  modify fun p => { p with lines := p.lines ++ [p.margin ++ s] }

/-- Goes one level deeper. -/
def indent : Write Unit := modify fun p => { p with indent := p.indent + 1 }

/-- Goes one level back. -/
def dedent : Write Unit := modify fun p => { p with indent := p.indent - 1 }

/-- A text that may not exist. -/
def text (s : Except WriteError String) : Write String :=
  match s with
  | .ok s => return s
  | .error e => throw e

/-- Texts that may not exist, separated by commas. -/
def texts (ss : List (Except WriteError String)) : Write String :=
  return ", ".intercalate (← ss.mapM text)

/-- A header and what it encloses in braces, one level deeper; on one line if it encloses
nothing. -/
def enclosed (header : String) (isEmpty : Bool) (inside : Write Unit) : Write Unit := do
  if isEmpty then line (header ++ " \x7b\x7d")
  else
    line (header ++ " \x7b")
    indent
    inside
    dedent
    line "\x7d"

/-- Members on lines of their own, all but the last followed by a separator. -/
def memberLines (separator : String) : List String → Write Unit
  | [] => return
  | [m] => line m
  | m :: ms => do
    line (m ++ separator)
    memberLines separator ms

/-- A header and its members. -/
def members (header : String) (ms : List String) (separator : String) : Write Unit :=
  enclosed header ms.isEmpty (memberLines separator ms)

end Write

/-! ## Members -/

/-- The source text of a field. -/
def Field.source (f : Field) : String := s!"{f.name}: {f.type}"

/-- The source text of a parameter. -/
def Parameter.source (p : Parameter) : String := s!"{p.name}: {p.type}"

/-- The source text of a field value. -/
def FieldValue.source (v : FieldValue) : String := s!"{v.name} = {v.value}"

/-- The source text of a data instance. -/
def DataInstance.source (d : DataInstance) : String :=
  d.name ++ "(" ++ ", ".intercalate (d.values.map FieldValue.source) ++ ")"

/-! ## Instructions and blocks -/

namespace Instruction

mutual

/-- Writes an instruction. -/
def write : Instruction → Write Unit
  | create group arguments => do
    let values ← Write.texts (arguments.map valueSource)
    Write.line s!"create {group}({values})"
  | declare d => do
    let text ← Write.text d.source
    Write.line s!"let {text}"
  | branch condition body => do
    let text ← Write.text condition.source
    Write.enclosed s!"if {text}" body.isEmpty (writeBody body)
  | foreach names collections body => do
    let texts ← Write.texts (collections.map Expr.source)
    let names := ", ".intercalate names
    Write.enclosed s!"foreach {names} in {texts}" body.isEmpty (writeBody body)
  | loop start condition step body => do
    let first ← Write.text start.source
    let second ← Write.text condition.source
    let third ← Write.text step.source
    Write.enclosed s!"for let {first}; {second}; {third}" body.isEmpty (writeBody body)

/-- Writes the instructions of a body. -/
def writeBody : List Instruction → Write Unit
  | [] => return
  | i :: is => do
    write i
    writeBody is

end

end Instruction

/-- Writes a block. -/
def Block.write : Block → Write Unit
  | data name fields => Write.members s!"data {name}" (fields.map Field.source) ","
  | group name parameters instances =>
    let parameters := ", ".intercalate (parameters.map Parameter.source)
    Write.members s!"group {name}({parameters})" (instances.map DataInstance.source) ""
  | action name body =>
    Write.enclosed s!"do {name}" body.isEmpty (Instruction.writeBody body)
  | run actions body =>
    let actions := ", ".intercalate actions
    Write.enclosed s!"run ({actions})" body.isEmpty (Instruction.writeBody body)

namespace Program

/-- Writes blocks, each after a blank line. -/
def writeLater : List Block → Write Unit
  | [] => return
  | b :: bs => do
    Write.blank
    b.write
    writeLater bs

/-- Writes a program. -/
def write (p : Program) : Write Unit :=
  match p.blocks with
  | [] => return
  | b :: bs => do
    b.write
    writeLater bs

/-- The source text of a program. -/
def source (p : Program) : Except WriteError String :=
  match p.write {} with
  | .ok _ page => .ok page.text
  | .error e _ => .error e

end Program

/-! ## Anything offered -/

namespace Datum

/-- Writes a program, a block or an instruction. -/
def write : Datum → Write Unit
  | node (.program p) => p.write
  | node (.block b) => b.write
  | node (.instruction i) => i.write
  | d => throw (.notStatement d.describe)

/-- Writes an instruction. -/
def writeInstruction : Datum → Write Unit
  | node (.instruction i) => i.write
  | d => throw (.notInstruction d.describe)

/-- Writes instructions. -/
def writeInstructions : List Datum → Write Unit
  | [] => return
  | d :: ds => do
    d.writeInstruction
    writeInstructions ds

/-- The source text of a declaration or of an evaluation. -/
def progressionSource (d : Datum) : Except WriteError String :=
  match d.progression? with
  | some p => p.source
  | none => .error (.notProgression d.describe)

/-- The source text of an expression. -/
def exprSource (d : Datum) : Except WriteError String :=
  match d.expr? with
  | some e => e.source
  | none => .error (.notExpression d.describe)

/-! ## Parts offered as the part of one kind -/

/-- The text of a value, taken from whatever has a text in the slot of one. -/
def valueText : Datum → Except Misfit String
  | node (.expr (.value s)) => .ok s
  | node (.fieldValue v) => .ok v.value
  | node (.instruction (.declare d)) => .error (.notAText (node (.expr d.value)))
  | node (.evaluation e) => .error (.notAText (node (.expr e)))
  | d => .error (d.lacking ["value"])

/-- The operation offered, if it is one. -/
def operation : Datum → Except Misfit Expr
  | node (.expr (.binary op lhs rhs)) => .ok (.binary op lhs rhs)
  | d => .error (d.lacking ["lhs", "rhs"])

/-- The declaration offered, if it is one. -/
def declaration : Datum → Except Misfit Declaration
  | node (.instruction (.declare d)) => .ok d
  | d => .error (d.lacking ["variable_name", "value"])

/-- The source text of a field offered. -/
def fieldSource : Datum → Except Misfit String
  | node (.field f) => .ok f.source
  | d => .error (d.lacking ["name", "field_type"])

/-- The source text of a parameter offered. -/
def parameterSource : Datum → Except Misfit String
  | node (.parameter p) => .ok p.source
  | d => .error (d.lacking ["name", "parameter_type"])

/-- The source text of a field value offered. -/
def fieldValueSource : Datum → Except Misfit String
  | node (.fieldValue v) => .ok v.source
  | d => .error (d.lacking ["name", "value"])

/-- The source text of a data instance offered. -/
def dataInstanceSource : Datum → Except Misfit String
  | node (.dataInstance d) => .ok d.source
  | d => .error (d.lacking ["field_values", "data_name"])

end Datum

end BlockLang
