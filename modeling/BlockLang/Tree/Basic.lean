import BlockLang.Token.Kind

/-!
# Programs

The trees that source texts denote. A program is a list of blocks: data structures, groups of data
instances, actions, and runs of actions. Actions and runs have bodies of instructions, which may
hold further bodies. Expressions are values joined by arithmetic operators; a tree records how they
are grouped, which a source text can only say through precedence.

Every tree owns its parts, so two trees are equal exactly if they have the same shape and the same
texts.
-/

namespace BlockLang

/-- An arithmetic expression. -/
inductive Expr where
  /-- A symbol, or two symbols joined by a point. -/
  | value (text : String)
  | binary (op : Operator) (lhs rhs : Expr)
  deriving DecidableEq, Repr, Inhabited

/-- A field of a data structure. -/
structure Field where
  name : String
  type : String
  deriving DecidableEq, Repr, Inhabited

/-- A parameter of a group. -/
structure Parameter where
  name : String
  type : String
  deriving DecidableEq, Repr, Inhabited

/-- A field of a data instance with its value. -/
structure FieldValue where
  name : String
  value : String
  deriving DecidableEq, Repr, Inhabited

/-- An instance of a data structure. -/
structure DataInstance where
  name : String
  values : List FieldValue
  deriving DecidableEq, Repr, Inhabited

/-- A variable and the expression that it is set to. -/
structure Declaration where
  name : String
  value : Expr
  deriving DecidableEq, Repr, Inhabited

/-- What happens between two rounds of a counting loop. -/
inductive Progression where
  | assign (d : Declaration)
  | evaluate (e : Expr)
  deriving DecidableEq, Repr, Inhabited

/-- An instruction. -/
inductive Instruction where
  /-- Creates a group from argument values. -/
  | create (group : String) (arguments : List String)
  | declare (d : Declaration)
  | branch (condition : Expr) (body : List Instruction)
  /-- Goes through several collections at once, one name for the current item of each. -/
  | foreach (names : List String) (collections : List Expr) (body : List Instruction)
  /-- A counting loop. -/
  | loop (start : Declaration) (condition : Expr) (step : Progression) (body : List Instruction)
  deriving Repr, Inhabited

namespace Instruction

mutual

/-- Are two instructions the same tree? -/
def same : Instruction → Instruction → Bool
  | create g xs, create h ys => g = h && xs = ys
  | declare d, declare e => d = e
  | branch c xs, branch d ys => c = d && sameBody xs ys
  | foreach ns cs xs, foreach ms ds ys => ns = ms && cs = ds && sameBody xs ys
  | loop s c p xs, loop t d q ys => s = t && c = d && p = q && sameBody xs ys
  | _, _ => false

/-- Are two bodies the same trees in the same order? -/
def sameBody : List Instruction → List Instruction → Bool
  | [], [] => true
  | x :: xs, y :: ys => same x y && sameBody xs ys
  | _, _ => false

end

mutual

theorem same_iff : ∀ x y : Instruction, same x y = true ↔ x = y
  | create .., y => by cases y <;> simp [same]
  | declare _, y => by cases y <;> simp [same]
  | branch _ xs, y => by cases y <;> simp [same, sameBody_iff xs]
  | foreach _ _ xs, y => by cases y <;> simp [same, sameBody_iff xs, and_assoc]
  | loop _ _ _ xs, y => by cases y <;> simp [same, sameBody_iff xs, and_assoc]

theorem sameBody_iff : ∀ xs ys : List Instruction, sameBody xs ys = true ↔ xs = ys
  | [], ys => by cases ys <;> simp [sameBody]
  | x :: xs, ys => by cases ys <;> simp [sameBody, same_iff x, sameBody_iff xs]

end

instance : DecidableEq Instruction := fun x y => decidable_of_iff _ (same_iff x y)

end Instruction

/-- A block. -/
inductive Block where
  /-- A data structure. -/
  | data (name : String) (fields : List Field)
  /-- A group of data instances. -/
  | group (name : String) (parameters : List Parameter) (instances : List DataInstance)
  /-- A named body of instructions. -/
  | action (name : String) (body : List Instruction)
  /-- Runs actions, with a body of its own. -/
  | run (actions : List String) (body : List Instruction)
  deriving DecidableEq, Repr, Inhabited

/-- A program. -/
structure Program where
  blocks : List Block
  deriving DecidableEq, Repr, Inhabited

end BlockLang
