import BlockLang.Json.Basic
import BlockLang.Tree.Node

/-!
# Trees as records

A record is a tree with its attributes under their names, in a fixed order. It is the common source
of two external forms: the data form, an object that names the kind first, and the listing, which
reads like a construction of the tree.
-/

namespace BlockLang

open BlockLang.Text

/-- A tree with named attributes. -/
inductive Record where
  /-- A text, such as a name or a type. -/
  | text (s : String)
  /-- Names that stand for no node. -/
  | names (ss : List String)
  /-- Parts in order. -/
  | parts (rs : List Record)
  /-- A node and its attributes. -/
  | node (kind : NodeKind) (attributes : List (String × Record))
  deriving Inhabited

/-! ## Records of trees -/

/-- The record of an expression. -/
def Expr.record : Expr → Record
  | value s => .node .value [("value", .text s)]
  | binary op lhs rhs => .node (.binary op) [("lhs", lhs.record), ("rhs", rhs.record)]

/-- The record of a field. -/
def Field.record (f : Field) : Record :=
  .node .field [("name", .text f.name), ("field_type", .text f.type)]

/-- The record of a parameter. -/
def Parameter.record (p : Parameter) : Record :=
  .node .parameter [("name", .text p.name), ("parameter_type", .text p.type)]

/-- The record of a field value. -/
def FieldValue.record (v : FieldValue) : Record :=
  .node .fieldValue [("name", .text v.name), ("value", .text v.value)]

/-- The record of a data instance. -/
def DataInstance.record (d : DataInstance) : Record :=
  .node .dataInstance
    [("data_name", .text d.name), ("field_values", .parts (d.values.map FieldValue.record))]

/-- The record of a declaration. -/
def Declaration.record (d : Declaration) : Record :=
  .node .declaration [("variable_name", .text d.name), ("value", d.value.record)]

/-- The record of an expression that stands where a statement is required. -/
def Expr.evaluationRecord (e : Expr) : Record := .node .evaluation [("value", e.record)]

/-- The record of a progression. -/
def Progression.record : Progression → Record
  | assign d => d.record
  | evaluate e => e.evaluationRecord

mutual

/-- The record of an instruction. -/
def Instruction.record : Instruction → Record
  | create group arguments =>
    .node .create [("group_name", .text group),
      ("parameter_values", .parts (arguments.map fun s => (Expr.value s).record))]
  | declare d => d.record
  | branch condition body =>
    .node .branch [("condition", condition.record), ("instructions", .parts (bodyRecords body))]
  | foreach names collections body =>
    .node .foreach [("values", .names names),
      ("collections", .parts (collections.map Expr.record)),
      ("instructions", .parts (bodyRecords body))]
  | loop start condition step body =>
    .node .loop [("declaration", start.record), ("condition", condition.record),
      ("progression", step.record), ("instructions", .parts (bodyRecords body))]

/-- The records of the instructions of a body. -/
def Instruction.bodyRecords : List Instruction → List Record
  | [] => []
  | i :: is => i.record :: bodyRecords is

end

/-- The record of a block. -/
def Block.record : Block → Record
  | data name fields =>
    .node .data [("name", .text name), ("fields", .parts (fields.map Field.record))]
  | group name parameters instances =>
    .node .group [("name", .text name), ("parameters", .parts (parameters.map Parameter.record)),
      ("data_instanciations", .parts (instances.map DataInstance.record))]
  | action name body =>
    .node .action [("name", .text name), ("instructions", .parts (Instruction.bodyRecords body))]
  | run actions body =>
    .node .run [("actions_to_do", .names actions),
      ("instructions", .parts (Instruction.bodyRecords body))]

/-- The record of a program. -/
def Program.record (p : Program) : Record :=
  .node .program [("blocks", .parts (p.blocks.map Block.record))]

/-- The record of a node. -/
def Node.record : Node → Record
  | program p => p.record
  | block b => b.record
  | parameter p => p.record
  | field f => f.record
  | fieldValue v => v.record
  | dataInstance d => d.record
  | instruction i => i.record
  | expr e => e.record
  | evaluation e => e.evaluationRecord

/-! ## External forms -/

namespace Record

mutual

/-- The data form: an object with the kind under `kind`, then the attributes. -/
def json : Record → Json
  | text s => .text s
  | names ss => .array (ss.map (.text ∘ .ofString))
  | parts rs => .array (jsons rs)
  | node kind attributes => .object (("kind", .text kind.tag) :: jsonMembers attributes)

/-- The data forms of several records. -/
def jsons : List Record → List Json
  | [] => []
  | r :: rs => r.json :: jsons rs

/-- The attributes with their data forms. -/
def jsonMembers : List (String × Record) → List (LooseText × Json)
  | [] => []
  | (name, r) :: attributes => (name, r.json) :: jsonMembers attributes

end

/-- Items between parentheses; a single item is followed by a comma. -/
def group : List String → String
  | [] => "()"
  | [item] => "(" ++ item ++ ",)"
  | items => "(" ++ ", ".intercalate items ++ ")"

mutual

/-- The listing: the title of the kind, with the attributes between parentheses. -/
def describe : Record → String
  | text s => quoted s
  | names ss => group (ss.map quoted)
  | parts rs => group (describeParts rs)
  | node kind attributes =>
    kind.title ++ "(" ++ ", ".intercalate (describeAttributes attributes) ++ ")"

/-- The listings of several records. -/
def describeParts : List Record → List String
  | [] => []
  | r :: rs => r.describe :: describeParts rs

/-- The listings of attributes, each after its name. -/
def describeAttributes : List (String × Record) → List String
  | [] => []
  | (name, r) :: attributes => (name ++ "=" ++ r.describe) :: describeAttributes attributes

end

end Record

/-- The data form of a node. -/
def Node.json (n : Node) : Json := n.record.json

/-- The listing of a node. -/
def Node.describe (n : Node) : String := n.record.describe

end BlockLang
