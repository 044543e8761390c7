import BlockLang.Grammar.Program
import Mathlib

/-!
# The grammar

The grammar is stated over terminals: a symbol with its text, or the kind of any other token.
Locations and the spelling of keywords and punctuation play no part in it. A span relates a list
of terminals, the tree that stands at its front, and the terminals behind that tree; spans compose
by handing the rest of one to the next.

Only points are greedy: a point behind the first symbol of a value belongs to the value, and so
does a symbol behind that point. Everything else is context free.
-/

namespace BlockLang

/-! ## Terminals -/

/-- What the grammar sees of a token. -/
inductive Terminal where
  | symbol (text : String)
  /-- Anything that is no symbol. -/
  | mark (kind : Kind)
  deriving DecidableEq, Repr, Inhabited

/-- The terminal of a token. -/
def Token.terminal (t : Token) : Terminal :=
  if t.kind = .symbol then .symbol t.value else .mark t.kind

/-- The terminals of a token list. -/
def terminals (ts : List Token) : List Terminal := ts.map Token.terminal

@[simp] theorem terminals_nil : terminals [] = [] := rfl

@[simp] theorem terminals_cons (t : Token) (ts : List Token) :
    terminals (t :: ts) = t.terminal :: terminals ts := rfl

@[simp] theorem terminals_append (ts us : List Token) :
    terminals (ts ++ us) = terminals ts ++ terminals us :=
  List.map_append

@[simp] theorem length_terminals (ts : List Token) : (terminals ts).length = ts.length :=
  List.length_map _

/-- The terminal of a symbol carries its text. -/
theorem Token.terminal_of_symbol {t : Token} (h : t.kind = .symbol) :
    t.terminal = .symbol t.value :=
  if_pos h

/-- The terminal of anything else carries its kind. -/
theorem Token.terminal_of_ne {t : Token} (h : t.kind ≠ .symbol) : t.terminal = .mark t.kind :=
  if_neg h

theorem Token.terminal_eq_symbol {t : Token} {s : String} :
    t.terminal = .symbol s ↔ t.kind = .symbol ∧ t.value = s := by
  by_cases h : t.kind = .symbol <;> simp [Token.terminal, h]

theorem Token.terminal_eq_mark {t : Token} {k : Kind} (hk : k ≠ .symbol) :
    t.terminal = .mark k ↔ t.kind = k := by
  by_cases h : t.kind = .symbol
  · simp [Token.terminal, h, Ne.symm hk]
  · simp [Token.terminal, h]

/-- Does the list go on with a token of the kind `k`? -/
def StartsWith (k : Kind) (ts : List Terminal) : Prop := ∃ rest, ts = .mark k :: rest

@[simp] theorem not_startsWith_nil {k : Kind} : ¬ StartsWith k [] := by
  rintro ⟨rest, h⟩
  cases h

@[simp] theorem startsWith_cons {k : Kind} {t : Terminal} {ts : List Terminal} :
    StartsWith k (t :: ts) ↔ t = .mark k := by
  simp [StartsWith]

/-! ## Spans -/

/-- A relation between a list of terminals, what stands at its front, and what is left. -/
abbrev Span (α : Type) := List Terminal → α → List Terminal → Prop

/-- `X*` -/
inductive ManySpan {α : Type} (X : Span α) : Span (List α)
  | nil {ts} : ManySpan X ts [] ts
  | cons {ts ms rest a as} : X ts a ms → ManySpan X ms as rest → ManySpan X ts (a :: as) rest

/-- One more item at the end of a repetition. -/
theorem ManySpan.snoc {α : Type} {X : Span α} {ts ms rest : List Terminal} {as : List α} {a : α}
    (h : ManySpan X ts as ms) (ha : X ms a rest) : ManySpan X ts (as ++ [a]) rest := by
  induction h with
  | nil => exact .cons ha .nil
  | cons hb _ ih => exact .cons hb (ih ha)

/-- `COMMA? X` -/
inductive CommaSpan {α : Type} (X : Span α) : Span α
  | plain {ts rest a} : X ts a rest → CommaSpan X ts a rest
  | comma {ts rest a} : X ts a rest → CommaSpan X (.mark (.delimiter .comma) :: ts) a rest

/-- `(COMMA? X)* COMMA?` -/
inductive SepSpan {α : Type} (X : Span α) : Span (List α)
  | plain {ts rest as} : ManySpan (CommaSpan X) ts as rest → SepSpan X ts as rest
  | comma {ts rest as} : ManySpan (CommaSpan X) ts as (.mark (.delimiter .comma) :: rest) →
      SepSpan X ts as rest

/-- `SYMBOL`, read as a name. -/
inductive NameSpan : Span String
  | symbol {s rest} : NameSpan (.symbol s :: rest) s rest

/-- `SYMBOL (DOT SYMBOL?)?`, as long as it can be. -/
inductive ValueSpan : Span String
  | name {s rest} : ¬ StartsWith (.delimiter .dot) rest → ValueSpan (.symbol s :: rest) s rest
  | pointed {s rest} : (∀ m more, rest ≠ .symbol m :: more) →
      ValueSpan (.symbol s :: .mark (.delimiter .dot) :: rest) (s ++ ".") rest
  | member {s m rest} :
      ValueSpan (.symbol s :: .mark (.delimiter .dot) :: .symbol m :: rest) (s ++ "." ++ m) rest

/-- A value, read as an expression. -/
inductive AtomSpan : Span Expr
  | value {ts rest s} : ValueSpan ts s rest → AtomSpan ts (.value s) rest

/-- `X (op X)*`, grouped to the left, for the operators that `admits` accepts. -/
inductive ChainSpan (admits : Operator → Bool) (X : Span Expr) : Span Expr
  | one {ts rest e} : X ts e rest → ChainSpan admits X ts e rest
  | more {ts ms rest lhs op rhs} : ChainSpan admits X ts lhs (.mark (.operator op) :: ms) →
      admits op = true → X ms rhs rest → ChainSpan admits X ts (.binary op lhs rhs) rest

/-- `Value ((MULT | DIV | MOD) Value)*` -/
abbrev TermSpan : Span Expr := ChainSpan (!·.isAdditive) AtomSpan

/-- `Term ((PLUS | SUB) Term)*` -/
abbrev ExprSpan : Span Expr := ChainSpan (·.isAdditive) TermSpan

/-- `SYMBOL EQUAL Expr` -/
inductive AssignmentSpan : Span Declaration
  | equal {ts rest s e} : ExprSpan ts e rest →
      AssignmentSpan (.symbol s :: .mark (.delimiter .equal) :: ts) ⟨s, e⟩ rest

/-- `LET? SYMBOL EQUAL Expr` -/
inductive DeclarationSpan : Span Declaration
  | plain {ts rest d} : AssignmentSpan ts d rest → DeclarationSpan ts d rest
  | letWord {ts rest d} : AssignmentSpan ts d rest →
      DeclarationSpan (.mark (.keyword .letWord) :: ts) d rest

/-- `LET SYMBOL EQUAL Expr`, or the same without its word for a name without a point, or
`Expr`. -/
inductive ProgressionSpan : Span Progression
  | letWord {ts rest d} : AssignmentSpan ts d rest →
      ProgressionSpan (.mark (.keyword .letWord) :: ts) (.assign d) rest
  | plain {ts rest d} : AssignmentSpan ts d rest → '.' ∉ d.name.toList →
      ProgressionSpan ts (.assign d) rest
  | evaluate {ts rest e} : ExprSpan ts e rest → ProgressionSpan ts (.evaluate e) rest

/-- `(Value | any token other than SYMBOL and RPAREN)*`, with the values. -/
inductive ArgumentsSpan : Span (List String)
  | nil {ts} : ArgumentsSpan ts [] ts
  | value {ts ms rest s as} : ValueSpan ts s ms → ArgumentsSpan ms as rest →
      ArgumentsSpan ts (s :: as) rest
  | other {ts rest k as} : k ≠ .delimiter .rightParen → ArgumentsSpan ts as rest →
      ArgumentsSpan (.mark k :: ts) as rest

mutual

/-- An instruction. -/
inductive InstructionSpan : Span Instruction
  /-- `CREATE SYMBOL LPAREN Arguments RPAREN` -/
  | create {ts rest g as} : ArgumentsSpan ts as (.mark (.delimiter .rightParen) :: rest) →
      InstructionSpan
        (.mark (.keyword .create) :: .symbol g :: .mark (.delimiter .leftParen) :: ts)
        (.create g as) rest
  /-- `LET SYMBOL EQUAL Expr` -/
  | declare {ts rest d} : AssignmentSpan ts d rest →
      InstructionSpan (.mark (.keyword .letWord) :: ts) (.declare d) rest
  /-- `IF Expr Body` -/
  | branch {ts ms rest c b} : ExprSpan ts c ms → BodySpan ms b rest →
      InstructionSpan (.mark (.keyword .ifWord) :: ts) (.branch c b) rest
  /-- `FOREACH SYMBOL (COMMA? SYMBOL)* IN (COMMA? Expr)* Body` -/
  | foreach {ts ms ks rest n ns cs b} :
      ManySpan (CommaSpan NameSpan) ts ns (.mark (.keyword .inWord) :: ms) →
      ManySpan (CommaSpan ExprSpan) ms cs ks → BodySpan ks b rest →
      InstructionSpan (.mark (.keyword .foreach) :: .symbol n :: ts) (.foreach (n :: ns) cs b) rest
  /-- `FOR Declaration SEMICOLON Expr SEMICOLON Progression Body` -/
  | loop {ts ms ks js rest s c p b} :
      DeclarationSpan ts s (.mark (.delimiter .semicolon) :: ms) →
      ExprSpan ms c (.mark (.delimiter .semicolon) :: ks) →
      ProgressionSpan ks p js → BodySpan js b rest →
      InstructionSpan (.mark (.keyword .forWord) :: ts) (.loop s c p b) rest

/-- `LBRACE Instruction* RBRACE` -/
inductive BodySpan : Span (List Instruction)
  | braces {ts rest b} : ManySpan InstructionSpan ts b (.mark (.delimiter .rightBrace) :: rest) →
      BodySpan (.mark (.delimiter .leftBrace) :: ts) b rest

end

/-- `SYMBOL COLON SYMBOL`, of a data structure. -/
inductive FieldSpan : Span Field
  | colon {n t rest} :
      FieldSpan (.symbol n :: .mark (.delimiter .colon) :: .symbol t :: rest) ⟨n, t⟩ rest

/-- `SYMBOL COLON SYMBOL`, of a group. -/
inductive ParameterSpan : Span Parameter
  | colon {n t rest} :
      ParameterSpan (.symbol n :: .mark (.delimiter .colon) :: .symbol t :: rest) ⟨n, t⟩ rest

/-- `SYMBOL EQUAL SYMBOL` -/
inductive FieldValueSpan : Span FieldValue
  | equal {n v rest} :
      FieldValueSpan (.symbol n :: .mark (.delimiter .equal) :: .symbol v :: rest) ⟨n, v⟩ rest

/-- `SYMBOL LPAREN Sep(FieldValue) RPAREN` -/
inductive DataInstanceSpan : Span DataInstance
  | parens {ts rest n vs} :
      SepSpan FieldValueSpan ts vs (.mark (.delimiter .rightParen) :: rest) →
      DataInstanceSpan (.symbol n :: .mark (.delimiter .leftParen) :: ts) ⟨n, vs⟩ rest

/-- `(any token but RPAREN)*`, with the texts of the symbols. -/
inductive ActionsSpan : Span (List String)
  | nil {ts} : ActionsSpan ts [] ts
  | symbol {ts rest s as} : ActionsSpan ts as rest → ActionsSpan (.symbol s :: ts) (s :: as) rest
  | other {ts rest k as} : k ≠ .delimiter .rightParen → ActionsSpan ts as rest →
      ActionsSpan (.mark k :: ts) as rest

/-- A block. -/
inductive BlockSpan : Span Block
  /-- `DATA SYMBOL LBRACE Sep(Field) RBRACE` -/
  | data {ts rest n fs} : SepSpan FieldSpan ts fs (.mark (.delimiter .rightBrace) :: rest) →
      BlockSpan (.mark (.keyword .data) :: .symbol n :: .mark (.delimiter .leftBrace) :: ts)
        (.data n fs) rest
  /-- `GROUP SYMBOL LPAREN Sep(Parameter) RPAREN LBRACE Sep(DataInstance) RBRACE` -/
  | group {ts ms rest n ps ds} :
      SepSpan ParameterSpan ts ps
        (.mark (.delimiter .rightParen) :: .mark (.delimiter .leftBrace) :: ms) →
      SepSpan DataInstanceSpan ms ds (.mark (.delimiter .rightBrace) :: rest) →
      BlockSpan (.mark (.keyword .group) :: .symbol n :: .mark (.delimiter .leftParen) :: ts)
        (.group n ps ds) rest
  /-- `DO SYMBOL Body` -/
  | action {ts rest n b} : BodySpan ts b rest →
      BlockSpan (.mark (.keyword .doWord) :: .symbol n :: ts) (.action n b) rest
  /-- `RUN LPAREN Actions RPAREN Body` -/
  | run {ts ms rest as b} : ActionsSpan ts as (.mark (.delimiter .rightParen) :: ms) →
      BodySpan ms b rest →
      BlockSpan (.mark (.keyword .run) :: .mark (.delimiter .leftParen) :: ts) (.run as b) rest

/-- **Derivation**: the terminals are those of the program, `Block*`. -/
def Program.Derives (ts : List Terminal) (p : Program) : Prop := ManySpan BlockSpan ts p.blocks []

/-! ## Nesting -/

mutual

/-- How deep the bodies inside an instruction are nested. -/
def Instruction.depth : Instruction → Nat
  | create .. | declare _ => 0
  | branch _ body | foreach _ _ body | loop _ _ _ body => Instruction.bodyDepth body

/-- How deep a body is nested, the body itself counted. -/
def Instruction.bodyDepth : List Instruction → Nat
  | [] => 1
  | i :: is => max (i.depth + 1) (bodyDepth is)

end

/-- How deep the bodies of a block are nested. -/
def Block.depth : Block → Nat
  | data .. | group .. => 0
  | action _ body | run _ body => Instruction.bodyDepth body

/-- How deep the bodies of a program are nested. -/
def Program.depth (p : Program) : Nat := (p.blocks.map Block.depth).foldr max 0

/-- A body counts itself. -/
theorem Instruction.bodyDepth_pos (b : List Instruction) : 0 < bodyDepth b := by
  cases b with
  | nil => simp [bodyDepth]
  | cons i is => simp only [bodyDepth]; omega

/-- A body is one deeper than its instructions. -/
theorem Instruction.bodyDepth_le_succ {b : List Instruction} {n : Nat} :
    bodyDepth b ≤ n + 1 ↔ ∀ i ∈ b, i.depth ≤ n := by
  induction b with
  | nil => simp [bodyDepth]
  | cons i is ih =>
    simp only [bodyDepth, Nat.max_le, ih, List.forall_mem_cons, Nat.add_le_add_iff_right]

/-- A program is as deep as the deepest of its blocks. -/
theorem Program.depth_le {p : Program} {n : Nat} : p.depth ≤ n ↔ ∀ b ∈ p.blocks, b.depth ≤ n := by
  obtain ⟨bs⟩ := p
  induction bs with
  | nil => simp [Program.depth]
  | cons b bs ih =>
    simp only [Program.depth, List.map_cons, List.foldr_cons, Nat.max_le, List.forall_mem_cons]
    exact and_congr_right' ih

end BlockLang
