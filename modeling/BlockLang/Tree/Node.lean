import BlockLang.Tree.Basic

/-!
# Nodes

A node is any tree or part of a tree that stands for a construct of its own. Nodes are what
programs are counted, listed and outlined by: every node has a kind and its direct children in
source order, and a walk visits a node before its children and the children in order. Names are no
nodes, except that the argument values of a creation are.
-/

namespace BlockLang

/-- The kinds of nodes. -/
inductive NodeKind where
  | program | data | group | action | run | parameter | field | fieldValue | dataInstance
  | declaration | create | branch | foreach | loop | value | evaluation
  | binary (op : Operator)
  deriving DecidableEq, Repr, Inhabited

namespace NodeKind

/-- The name of an operator's nodes. -/
def operatorTag : Operator → String
  | .add => "sum"
  | .sub => "substraction"
  | .mul => "multiplication"
  | .div => "division"
  | .mod => "modulo"

/-- The name of a kind in outlines and in data. -/
def tag : NodeKind → String
  | program => "program"
  | data => "data"
  | group => "group"
  | action => "do"
  | run => "run"
  | parameter => "parameter"
  | field => "field"
  | fieldValue => "field_value"
  | dataInstance => "data_instanciation"
  | declaration => "declaration"
  | create => "create_instruction"
  | branch => "if"
  | foreach => "foreach"
  | loop => "for"
  | value => "value"
  | evaluation => "expression"
  | binary op => operatorTag op

/-- The title of a kind in messages: the words of its tag, each with a capital, written as one. -/
def title : NodeKind → String
  | program => "Program"
  | data => "Data"
  | group => "Group"
  | action => "Do"
  | run => "Run"
  | parameter => "Parameter"
  | field => "Field"
  | fieldValue => "FieldValue"
  | dataInstance => "DataInstanciation"
  | declaration => "Declaration"
  | create => "CreateInstruction"
  | branch => "If"
  | foreach => "Foreach"
  | loop => "For"
  | value => "Value"
  | evaluation => "Expression"
  | binary .add => "Sum"
  | binary .sub => "Substraction"
  | binary .mul => "Multiplication"
  | binary .div => "Division"
  | binary .mod => "Modulo"

/-- All kinds. -/
def all : List NodeKind :=
  [program, data, group, action, run, parameter, field, fieldValue, dataInstance, declaration,
    create, branch, foreach, loop, value, evaluation] ++ Operator.all.map binary

/-- The kind of a tag. -/
def ofTag? (s : String) : Option NodeKind := all.find? (·.tag == s)

theorem ofTag?_tag (k : NodeKind) : ofTag? k.tag = some k := by
  rcases k with _ | _ | _ | _ | _ | _ | _ | _ | _ | _ | _ | _ | _ | _ | _ | _ | op
  case binary => cases op <;> decide
  all_goals decide

end NodeKind

/-- A construct of a program. -/
inductive Node where
  | program (p : Program)
  | block (b : Block)
  | parameter (p : Parameter)
  | field (f : Field)
  | fieldValue (v : FieldValue)
  | dataInstance (d : DataInstance)
  | instruction (i : Instruction)
  | expr (e : Expr)
  /-- An expression that stands where a statement is required. -/
  | evaluation (e : Expr)
  deriving DecidableEq, Repr, Inhabited

/-- The kind of an expression. -/
def Expr.kind : Expr → NodeKind
  | value _ => .value
  | binary op _ _ => .binary op

/-- The kind of an instruction. -/
def Instruction.kind : Instruction → NodeKind
  | create .. => .create
  | declare _ => .declaration
  | branch .. => .branch
  | foreach .. => .foreach
  | loop .. => .loop

/-- The kind of a block. -/
def Block.kind : Block → NodeKind
  | data .. => .data
  | group .. => .group
  | action .. => .action
  | run .. => .run

/-- The node of a progression: a declaration like any other, or an evaluation. -/
def Progression.node : Progression → Node
  | assign d => .instruction (.declare d)
  | evaluate e => .evaluation e

/-! ## Sizes -/

/-- The number of nodes of an expression. -/
def Expr.size : Expr → Nat
  | value _ => 1
  | binary _ lhs rhs => lhs.size + rhs.size + 1

/-- The number of nodes of a progression. -/
def Progression.size : Progression → Nat
  | assign d => d.value.size + 1
  | evaluate e => e.size + 1

mutual

/-- The number of nodes of an instruction. -/
def Instruction.size : Instruction → Nat
  | create _ arguments => arguments.length + 1
  | declare d => d.value.size + 1
  | branch condition body => condition.size + bodySize body + 1
  | foreach _ collections body => (collections.map Expr.size).foldr (· + ·) 0 + bodySize body + 1
  | loop start condition step body =>
    (start.value.size + 1) + condition.size + step.size + bodySize body + 1

/-- The number of nodes of a body. -/
def Instruction.bodySize : List Instruction → Nat
  | [] => 0
  | i :: is => i.size + bodySize is

end

/-- The number of nodes of a block. -/
def Block.size : Block → Nat
  | data _ fields => fields.length + 1
  | group _ parameters instances =>
    parameters.length + (instances.map (·.values.length + 1)).foldr (· + ·) 0 + 1
  | action _ body => Instruction.bodySize body + 1
  | run _ body => Instruction.bodySize body + 1

namespace Node

/-- The number of nodes of a tree. -/
def size : Node → Nat
  | program p => (p.blocks.map Block.size).foldr (· + ·) 0 + 1
  | block b => b.size
  | parameter _ | field _ | fieldValue _ => 1
  | dataInstance d => d.values.length + 1
  | instruction i => i.size
  | expr e => e.size
  | evaluation e => e.size + 1

/-- The kind of a node. -/
def kind : Node → NodeKind
  | program _ => .program
  | block b => b.kind
  | parameter _ => .parameter
  | field _ => .field
  | fieldValue _ => .fieldValue
  | dataInstance _ => .dataInstance
  | instruction i => i.kind
  | expr e => e.kind
  | evaluation _ => .evaluation

/-- The direct children of a node, in source order. -/
def children : Node → List Node
  | program p => p.blocks.map block
  | block (.data _ fields) => fields.map field
  | block (.group _ parameters instances) => parameters.map parameter ++ instances.map dataInstance
  | block (.action _ body) | block (.run _ body) => body.map instruction
  | parameter _ | field _ | fieldValue _ => []
  | dataInstance d => d.values.map fieldValue
  | instruction (.create _ arguments) => arguments.map (expr ∘ .value)
  | instruction (.declare d) => [expr d.value]
  | instruction (.branch condition body) => expr condition :: body.map instruction
  | instruction (.foreach _ collections body) => collections.map expr ++ body.map instruction
  | instruction (.loop start condition step body) =>
    instruction (.declare start) :: expr condition :: step.node :: body.map instruction
  | expr (.value _) => []
  | expr (.binary _ lhs rhs) => [expr lhs, expr rhs]
  | evaluation e => [expr e]

/-- The number of nodes of several trees. -/
def sizes (ns : List Node) : Nat := (ns.map size).foldr (· + ·) 0

theorem sizes_cons (n : Node) (ns : List Node) : sizes (n :: ns) = n.size + sizes ns := by
  simp [sizes]

theorem sizes_append (ns ms : List Node) : sizes (ns ++ ms) = sizes ns + sizes ms := by
  induction ns with
  | nil => simp [sizes]
  | cons n ns ih => rw [List.cons_append, sizes_cons, sizes_cons, ih, Nat.add_assoc]

theorem sizes_instructions (body : List Instruction) :
    sizes (body.map instruction) = Instruction.bodySize body := by
  induction body with
  | nil => rfl
  | cons i is ih => rw [List.map_cons, sizes_cons, ih]; rfl

theorem size_progression (p : Progression) : p.node.size = p.size := by
  cases p <;> rfl

/-- Trees of one node each are as many as their nodes. -/
theorem sizes_map_of_size_one {α : Type} {f : α → Node} (h : ∀ x, (f x).size = 1) (xs : List α) :
    sizes (xs.map f) = xs.length := by
  induction xs with
  | nil => rfl
  | cons x xs ih => rw [List.map_cons, sizes_cons, h, ih, List.length_cons, Nat.add_comm]

theorem sizes_map {α : Type} (f : α → Node) (xs : List α) :
    sizes (xs.map f) = (xs.map fun x => (f x).size).foldr (· + ·) 0 := by
  simp [sizes, Function.comp_def]

/-- A tree has one node more than its children together. -/
theorem size_eq (n : Node) : n.size = sizes n.children + 1 := by
  fun_cases children n with
  | case1 p => rw [sizes_map]; rfl
  | case2 _ fields => rw [sizes_map_of_size_one fun _ => rfl]; rfl
  | case3 _ parameters instances =>
    rw [sizes_append, sizes_map_of_size_one fun _ => rfl, sizes_map]; rfl
  | case4 _ body => rw [sizes_instructions]; rfl
  | case5 _ body => rw [sizes_instructions]; rfl
  | case6 => rfl
  | case7 => rfl
  | case8 => rfl
  | case9 d => rw [sizes_map_of_size_one fun _ => rfl]; rfl
  | case10 _ arguments => rw [sizes_map_of_size_one fun _ => rfl]; rfl
  | case11 d => rfl
  | case12 condition body => rw [sizes_cons, sizes_instructions]; rfl
  | case13 _ collections body => rw [sizes_append, sizes_instructions, sizes_map]; rfl
  | case14 start condition step body =>
    rw [sizes_cons, sizes_cons, sizes_cons, sizes_instructions, size_progression]
    simp only [size, Instruction.size]
    omega
  | case15 => rfl
  | case16 _ lhs rhs => rfl
  | case17 e => rfl

theorem size_le_sizes {n : Node} {ns : List Node} (h : n ∈ ns) : n.size ≤ sizes ns := by
  induction h with
  | head => rw [sizes_cons]; omega
  | tail _ _ ih => rw [sizes_cons]; omega

theorem size_lt_of_mem_children {n c : Node} (h : c ∈ n.children) : c.size < n.size := by
  rw [size_eq n]
  exact Nat.lt_succ_of_le (size_le_sizes h)

/-! ## Walking -/

/-- The nodes of the trees on a stack, a tree at a time from its top: the node, then its children
in place of the tree. -/
def walkAll : List Node → List Node
  | [] => []
  | n :: stack => n :: walkAll (n.children ++ stack)
termination_by stack => sizes stack
decreasing_by
  rw [sizes_append, sizes_cons, size_eq n]
  omega

/-- A node and all below it, each node before its children. -/
def walk (n : Node) : List Node := walkAll [n]

/-- The number of nodes in several trees. -/
def count (ns : List Node) : Nat := (ns.map (·.walk.length)).foldr (· + ·) 0

end Node

end BlockLang
