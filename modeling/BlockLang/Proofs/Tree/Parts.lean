import BlockLang.Tree.Basic

/-!
# Parts of trees

The names and expressions of an instruction, and all instructions and names of a program, at any
depth.
-/

namespace BlockLang

/-- The variable that a progression sets. -/
def Progression.names : Progression → List String
  | assign d => [d.name]
  | evaluate _ => []

/-- The expression of a progression. -/
def Progression.expr : Progression → Expr
  | assign d => d.value
  | evaluate e => e

namespace Instruction

/-- The names in an instruction, outside its body. -/
def names : Instruction → List String
  | create group _ => [group]
  | declare d => [d.name]
  | branch .. => []
  | foreach names _ _ => names
  | loop start _ step _ => start.name :: step.names

/-- The expressions in an instruction, outside its body; the arguments of a creation are values. -/
def exprs : Instruction → List Expr
  | create _ arguments => arguments.map .value
  | declare d => [d.value]
  | branch condition _ => [condition]
  | foreach _ collections _ => collections
  | loop start condition step _ => [start.value, condition, step.expr]

mutual

/-- An instruction and all instructions inside it. -/
def all : Instruction → List Instruction
  | create group arguments => [create group arguments]
  | declare d => [declare d]
  | branch condition body => branch condition body :: allIn body
  | foreach names collections body => foreach names collections body :: allIn body
  | loop start condition step body => loop start condition step body :: allIn body

/-- All instructions of a body, at any depth. -/
def allIn : List Instruction → List Instruction
  | [] => []
  | i :: is => all i ++ allIn is

end

/-- An instruction is one of its own. -/
theorem mem_all (i : Instruction) : i ∈ i.all := by
  cases i <;> simp [all]

/-- A loop over collections has a name for something. -/
def HasNames : Instruction → Prop
  | foreach names _ _ => names ≠ []
  | _ => True

/-- A loop over collections has a collection to go through. -/
def HasCollections : Instruction → Prop
  | foreach _ collections _ => collections ≠ []
  | _ => True

/-- The step of a counting loop sets no name that holds a point. -/
def Undotted : Instruction → Prop
  | loop _ _ (.assign d) _ => '.' ∉ d.name.toList
  | _ => True

instance : DecidablePred HasNames
  | foreach names _ _ => inferInstanceAs (Decidable (names ≠ []))
  | create .. | declare _ | branch .. | loop .. => inferInstanceAs (Decidable True)

instance : DecidablePred HasCollections
  | foreach _ collections _ => inferInstanceAs (Decidable (collections ≠ []))
  | create .. | declare _ | branch .. | loop .. => inferInstanceAs (Decidable True)

instance : DecidablePred Undotted
  | loop _ _ (.assign d) _ => inferInstanceAs (Decidable ('.' ∉ d.name.toList))
  | loop _ _ (.evaluate _) _ => inferInstanceAs (Decidable True)
  | create .. | declare _ | branch .. | foreach .. => inferInstanceAs (Decidable True)

end Instruction

/-- The names in a block, outside its body. -/
def Block.names : Block → List String
  | data name fields => name :: fields.flatMap fun f => [f.name, f.type]
  | group name parameters instances =>
    name :: (parameters.flatMap fun p => [p.name, p.type]) ++
      instances.flatMap fun d => d.name :: d.values.flatMap fun v => [v.name, v.value]
  | action name _ => [name]
  | run actions _ => actions

/-- Two names of every member. -/
theorem forall_mem_pairs {α : Type} {P : String → Prop} {f g : α → String} {as : List α} :
    (∀ n ∈ as.flatMap fun a => [f a, g a], P n) ↔ ∀ a ∈ as, P (f a) ∧ P (g a) := by
  rw [List.forall_mem_flatMap]
  simp only [List.forall_mem_cons, List.not_mem_nil, false_implies, implies_true, and_true]

/-- The instructions of a block, at any depth. -/
def Block.instructions : Block → List Instruction
  | data .. | group .. => []
  | action _ body | run _ body => Instruction.allIn body

/-- The instructions of a program, at any depth. -/
def Program.instructions (p : Program) : List Instruction := p.blocks.flatMap Block.instructions

/-- The names in a program. -/
def Program.names (p : Program) : List String :=
  p.blocks.flatMap Block.names ++ p.instructions.flatMap Instruction.names

end BlockLang
