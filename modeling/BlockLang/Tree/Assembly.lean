import BlockLang.Tree.Record

/-!
# Assembling trees

Trees can be put together from loosely typed parts, such as data read from outside. Assembly checks
every part where it is put: a sequence has to be one, and every element and every single child has
to be of a kind that may stand there. The parts of a node are assembled before the node, in the
order of its attributes, and the first misfit is reported.
-/

namespace BlockLang

open BlockLang.Text

/-- Something offered as a tree or as a part of one. -/
inductive Datum where
  | null
  | bool (b : Bool)
  | int (n : Int)
  | real (x : Number.Real64)
  | text (s : String)
  | list (items : List Datum)
  | node (n : Node)
  deriving Inhabited

namespace Datum

/-- The name of the type of something offered: the title of its kind if it is a node. -/
def typeName : Datum → String
  | null => "NoneType"
  | bool _ => "bool"
  | int _ => "int"
  | real _ => "float"
  | text _ => "str"
  | list _ => "list"
  | node n => n.kind.title

mutual

/-- Something offered, as a message shows it. -/
def describe : Datum → String
  | null => Json.null.describe
  | bool b => (Json.bool b).describe
  | int n => (Json.int n).describe
  | real x => (Json.real x).describe
  | text s => (Json.text s).describe
  | list items => "[" ++ ", ".intercalate (describeItems items) ++ "]"
  | node n => n.describe

/-- The items of a list, as a message shows them. -/
def describeItems : List Datum → List String
  | [] => []
  | item :: items => item.describe :: describeItems items

end

end Datum

/-- Why parts do not make a tree. -/
inductive Misfit where
  /-- A slot needs a sequence and got a text or nothing. -/
  | noSequence (owner : NodeKind) (slot : String) (given : Datum)
  /-- A slot needs a sequence and got a single thing. -/
  | notIterable (given : Datum)
  /-- An element may not stand in a sequence. -/
  | cannotHold (owner : NodeKind) (slot : String) (given : Datum)
  /-- A single child may not stand where it was put. -/
  | cannotBe (owner : NodeKind) (slot : String) (given : Datum)
  /-- A node was required. -/
  | notANode (given : Datum)
  /-- Something without named slots was to be shown by them. -/
  | noSlots
  /-- Something lacks a slot that was asked for. -/
  | lacksSlot (given : Datum) (slot : String)
  /-- A text was required. -/
  | notAText (given : Datum)

namespace Misfit

/-- The message of a misfit. -/
def message : Misfit → String
  | noSequence owner slot given =>
    s!"{owner.title}.{slot} must be a sequence, got {given.describe}"
  | notIterable given => s!"'{given.typeName}' object is not iterable"
  | cannotHold owner slot given =>
    s!"{owner.title}.{slot} cannot hold {given.typeName}"
  | cannotBe owner slot given => s!"{owner.title}.{slot} cannot be {given.typeName}"
  | notANode given => s!"Not an AST node: {given.describe}"
  | noSlots => "must be called with a dataclass type or instance"
  | lacksSlot given slot => s!"'{given.typeName}' object has no attribute '{slot}'"
  | notAText given => s!"object of type '{given.typeName}' has no len()"

end Misfit

namespace Datum

/-! ## What may stand where -/

/-- A text. -/
def text? : Datum → Option String
  | text s => some s
  | _ => none

/-- An expression. -/
def expr? : Datum → Option Expr
  | node (.expr e) => some e
  | _ => none

/-- An expression that is a single value. -/
def value? : Datum → Option String
  | node (.expr (.value s)) => some s
  | _ => none

/-- A declaration. -/
def declaration? : Datum → Option Declaration
  | node (.instruction (.declare d)) => some d
  | _ => none

/-- A declaration, or an expression that stands for a statement. -/
def progression? : Datum → Option Progression
  | node (.instruction (.declare d)) => some (.assign d)
  | node (.evaluation e) => some (.evaluate e)
  | _ => none

/-- An instruction. -/
def instruction? : Datum → Option Instruction
  | node (.instruction i) => some i
  | _ => none

/-- A block. -/
def block? : Datum → Option Block
  | node (.block b) => some b
  | _ => none

/-- A field. -/
def field? : Datum → Option Field
  | node (.field f) => some f
  | _ => none

/-- A parameter. -/
def parameter? : Datum → Option Parameter
  | node (.parameter p) => some p
  | _ => none

/-- A field value. -/
def fieldValue? : Datum → Option FieldValue
  | node (.fieldValue v) => some v
  | _ => none

/-- A data instance. -/
def dataInstance? : Datum → Option DataInstance
  | node (.dataInstance d) => some d
  | _ => none

end Datum

namespace Node

variable {α : Type}

/-- The elements of a sequence, each of which has to be admitted. -/
def elements (owner : NodeKind) (slot : String) (accept : Datum → Option α) :
    List Datum → Except Misfit (List α)
  | [] => .ok []
  | d :: ds =>
    match accept d with
    | none => .error (.cannotHold owner slot d)
    | some a => (elements owner slot accept ds).map (a :: ·)

/-- The elements of a slot that has to be a sequence. -/
def sequence (owner : NodeKind) (slot : String) (accept : Datum → Option α) :
    Datum → Except Misfit (List α)
  | .list ds => elements owner slot accept ds
  | .null => .error (.noSequence owner slot .null)
  | .text s => .error (.noSequence owner slot (.text s))
  | d => .error (.notIterable d)

/-- A single child, which has to be admitted. -/
def child (owner : NodeKind) (slot : String) (accept : Datum → Option α) (d : Datum) :
    Except Misfit α :=
  match accept d with
  | none => .error (.cannotBe owner slot d)
  | some a => .ok a

/-- The slots of a kind of nodes, in order. -/
def attributeNames : NodeKind → List String
  | .program => ["blocks"]
  | .data => ["name", "fields"]
  | .group => ["name", "parameters", "data_instanciations"]
  | .action => ["name", "instructions"]
  | .run => ["actions_to_do", "instructions"]
  | .parameter => ["name", "parameter_type"]
  | .field => ["name", "field_type"]
  | .fieldValue => ["name", "value"]
  | .dataInstance => ["data_name", "field_values"]
  | .declaration => ["variable_name", "value"]
  | .create => ["group_name", "parameter_values"]
  | .branch => ["condition", "instructions"]
  | .foreach => ["values", "collections", "instructions"]
  | .loop => ["declaration", "condition", "progression", "instructions"]
  | .value | .evaluation => ["value"]
  | .binary _ => ["lhs", "rhs"]

/-- The node of a kind with the slots that `part` gives. -/
def assemble (kind : NodeKind) (part : String → Datum) : Except Misfit Node := do
  let one {α : Type} (slot : String) (accept : Datum → Option α) : Except Misfit α :=
    child kind slot accept (part slot)
  let many {α : Type} (slot : String) (accept : Datum → Option α) : Except Misfit (List α) :=
    sequence kind slot accept (part slot)
  match kind with
  | .program => return .program ⟨← many "blocks" Datum.block?⟩
  | .data =>
    return .block (.data (← one "name" Datum.text?) (← many "fields" Datum.field?))
  | .group =>
    return .block (.group (← one "name" Datum.text?) (← many "parameters" Datum.parameter?)
      (← many "data_instanciations" Datum.dataInstance?))
  | .action =>
    return .block (.action (← one "name" Datum.text?)
      (← many "instructions" Datum.instruction?))
  | .run =>
    return .block (.run (← many "actions_to_do" Datum.text?)
      (← many "instructions" Datum.instruction?))
  | .parameter =>
    return .parameter ⟨← one "name" Datum.text?, ← one "parameter_type" Datum.text?⟩
  | .field => return .field ⟨← one "name" Datum.text?, ← one "field_type" Datum.text?⟩
  | .fieldValue => return .fieldValue ⟨← one "name" Datum.text?, ← one "value" Datum.text?⟩
  | .dataInstance =>
    return .dataInstance ⟨← one "data_name" Datum.text?, ← many "field_values" Datum.fieldValue?⟩
  | .declaration =>
    return .instruction (.declare ⟨← one "variable_name" Datum.text?, ← one "value" Datum.expr?⟩)
  | .create =>
    return .instruction (.create (← one "group_name" Datum.text?)
      (← many "parameter_values" Datum.value?))
  | .branch =>
    return .instruction (.branch (← one "condition" Datum.expr?)
      (← many "instructions" Datum.instruction?))
  | .foreach =>
    return .instruction (.foreach (← many "values" Datum.text?) (← many "collections" Datum.expr?)
      (← many "instructions" Datum.instruction?))
  | .loop =>
    return .instruction (.loop (← one "declaration" Datum.declaration?)
      (← one "condition" Datum.expr?) (← one "progression" Datum.progression?)
      (← many "instructions" Datum.instruction?))
  | .value => return .expr (.value (← one "value" Datum.text?))
  | .evaluation => return .evaluation (← one "value" Datum.expr?)
  | .binary op =>
    return .expr (.binary op (← one "lhs" Datum.expr?) (← one "rhs" Datum.expr?))

end Node

namespace Datum

/-- The parts of a node in the order of its attributes, each with its name. A part that is absent
is an empty sequence. -/
def gather (parts : List (String × Except Misfit Datum)) :
    List String → Except Misfit (List (String × Datum))
  | [] => .ok []
  | slot :: slots => do
    let part ← (Table.find? slot parts).getD (.ok (.list []))
    return (slot, part) :: (← gather parts slots)

/-- The node that an object of the data form stands for: its kind is under `kind`. -/
def assembleObject (members : List (LooseText × Json))
    (parts : List (String × Except Misfit Datum)) :
    Except Misfit Datum :=
  match (Table.find? (.ofString "kind") members).bind fun
      | .text s => s.toString?.bind NodeKind.ofTag?
      | _ => none with
  | none => .error (.notANode .null)
  | some kind => do
    let given ← gather parts (Node.attributeNames kind)
    return node (← Node.assemble kind fun slot => (Table.find? slot given).getD null)

mutual

/-- What a value of the data format offers: objects are assembled to nodes, bottom up. -/
def ofJson : Json → Except Misfit Datum
  | .null => .ok null
  | .bool b => .ok (bool b)
  | .int n => .ok (int n)
  | .real x => .ok (real x)
  | .text s => .ok (text s.filled)
  | .array items => (ofItems items).map list
  | .object members => assembleObject members (ofMembers members)

/-- What the items of an array offer. -/
def ofItems : List Json → Except Misfit (List Datum)
  | [] => .ok []
  | item :: items => do
    let d ← ofJson item
    return d :: (← ofItems items)

/-- What the members of an object offer, each by itself. -/
def ofMembers : List (LooseText × Json) → List (String × Except Misfit Datum)
  | [] => []
  | (name, value) :: members => (name.filled, ofJson value) :: ofMembers members

end

/-- The slots of something offered; only nodes have some. -/
def slots : Datum → List String
  | node n => Node.attributeNames n.kind
  | _ => []

/-- The first of the slots asked for that is lacking; something that has them all is no node of the
kind asked for. -/
def lacking (d : Datum) (asked : List String) : Misfit :=
  match asked.find? (!d.slots.contains ·) with
  | some slot => .lacksSlot d slot
  | none => .notANode d

/-- The node offered, if it is one. -/
def asNode : Datum → Except Misfit Node
  | node n => .ok n
  | d => .error (.notANode d)

end Datum

end BlockLang
