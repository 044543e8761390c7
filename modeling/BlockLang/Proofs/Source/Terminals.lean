import BlockLang.Proofs.Grammar.Laws
import BlockLang.Proofs.Source.Values
import BlockLang.Proofs.Tree.Parts

/-!
# The terminals of a written tree

What the grammar sees of the source text of a tree, and that it spans the tree. The one thing that
can go wrong is the step of a counting loop: it is written without its word, so a name that holds a
point is read as something else.
-/

namespace BlockLang

/-! ## Terminals -/

/-- The terminals of items with commas between them. -/
def commaList {α : Type} (f : α → List Terminal) : List α → List Terminal
  | [] => []
  | a :: as => f a ++ as.flatMap fun b => .mark (.delimiter .comma) :: f b

/-- Terminals in braces. -/
def braced (ws : List Terminal) : List Terminal :=
  .mark (.delimiter .leftBrace) :: (ws ++ [.mark (.delimiter .rightBrace)])

/-- Terminals in parentheses. -/
def parenthesized (ws : List Terminal) : List Terminal :=
  .mark (.delimiter .leftParen) :: (ws ++ [.mark (.delimiter .rightParen)])

/-- The terminals of the source text of an expression. -/
def Expr.terminals : Expr → List Terminal
  | value text => valueTerminals text
  | binary op lhs rhs => lhs.terminals ++ .mark (.operator op) :: rhs.terminals

/-- The terminals of the source text of a declaration, without its word. -/
def Declaration.terminals (d : Declaration) : List Terminal :=
  .symbol d.name :: .mark (.delimiter .equal) :: d.value.terminals

/-- The terminals of the source text of a progression. -/
def Progression.terminals : Progression → List Terminal
  | assign d => d.terminals
  | evaluate e => e.terminals

namespace Instruction

mutual

/-- The terminals of the source text of an instruction. -/
def terminals : Instruction → List Terminal
  | create group arguments =>
    .mark (.keyword .create) :: .symbol group :: parenthesized (commaList valueTerminals arguments)
  | declare d => .mark (.keyword .letWord) :: d.terminals
  | branch condition body =>
    .mark (.keyword .ifWord) :: (condition.terminals ++ braced (bodyTerminals body))
  | foreach names collections body =>
    .mark (.keyword .foreach) :: (commaList (fun n => [.symbol n]) names ++
      .mark (.keyword .inWord) :: (commaList Expr.terminals collections ++
        braced (bodyTerminals body)))
  | loop start condition step body =>
    .mark (.keyword .forWord) :: .mark (.keyword .letWord) :: (start.terminals ++
      .mark (.delimiter .semicolon) :: (condition.terminals ++
        .mark (.delimiter .semicolon) :: (step.terminals ++ braced (bodyTerminals body))))

/-- The terminals of the source texts of a body's instructions. -/
def bodyTerminals : List Instruction → List Terminal
  | [] => []
  | i :: is => terminals i ++ bodyTerminals is

end

end Instruction

/-- Two names with a token between them. -/
def pairTerminals (k : Kind) (name value : String) : List Terminal :=
  [.symbol name, .mark k, .symbol value]

/-- The terminals of the source text of a field. -/
def Field.terminals (f : Field) : List Terminal := pairTerminals (.delimiter .colon) f.name f.type

/-- The terminals of the source text of a parameter. -/
def Parameter.terminals (p : Parameter) : List Terminal :=
  pairTerminals (.delimiter .colon) p.name p.type

/-- The terminals of the source text of a field value. -/
def FieldValue.terminals (v : FieldValue) : List Terminal :=
  pairTerminals (.delimiter .equal) v.name v.value

/-- The terminals of the source text of a data instance. -/
def DataInstance.terminals (d : DataInstance) : List Terminal :=
  .symbol d.name :: parenthesized (commaList FieldValue.terminals d.values)

/-- The terminals of the source text of a block. -/
def Block.terminals : Block → List Terminal
  | data name fields =>
    .mark (.keyword .data) :: .symbol name :: braced (commaList Field.terminals fields)
  | group name parameters instances =>
    .mark (.keyword .group) :: .symbol name ::
      (parenthesized (commaList Parameter.terminals parameters) ++
        braced (instances.flatMap DataInstance.terminals))
  | action name body =>
    .mark (.keyword .doWord) :: .symbol name :: braced (Instruction.bodyTerminals body)
  | run actions body =>
    .mark (.keyword .run) :: (parenthesized (commaList (fun n => [.symbol n]) actions) ++
      braced (Instruction.bodyTerminals body))

/-- The terminals of the source text of a program. -/
def Program.terminals (p : Program) : List Terminal := p.blocks.flatMap Block.terminals

/-! ## Expressions -/

/-- Has the expression a source text? -/
def Expr.Writable (e : Expr) : Prop := ∃ s, e.source = .ok s

theorem valueTerminals_spans {text : String} (h : (Expr.value text).Writable)
    {rest : List Terminal} (hr : EndsValue rest) :
    ValueSpan (valueTerminals text ++ rest) text rest := by
  obtain ⟨source, hs⟩ := h
  exact (valueSource_reads hs).2.behind hr.1 hr.2

/-- A value is no additive operation. -/
theorem Expr.isAdditive_of_isValue {e : Expr} (h : e.isValue = true) : e.isAdditive = false := by
  cases e with
  | value => rfl
  | binary => cases h

/-- An operation has a source text if its operands have one and are grouped as precedence groups
them. -/
theorem Expr.writable_binary {op : Operator} {lhs rhs : Expr} :
    (binary op lhs rhs).Writable ↔ lhs.Writable ∧ rhs.Writable ∧ rhs.isAdditive = false ∧
      (op.isAdditive = false → lhs.isAdditive = false ∧ rhs.isValue = true) := by
  have hboth : ∀ x y : Except WriteError String,
      (∃ s, (do return operationText op (← x) (← y)) = Except.ok s) ↔
        (∃ a, x = .ok a) ∧ ∃ b, y = .ok b := by
    rintro (_ | _) (_ | _) <;> simp [bind, Except.bind, pure, Except.pure]
  unfold Writable
  rw [source]
  by_cases hop : op.isAdditive = true
  · rw [if_pos hop]
    by_cases hr : rhs.isAdditive = true
    · simp [hr]
    · rw [if_neg hr, hboth]
      simp [hop, hr]
  · rw [if_neg hop]
    by_cases hoperands : (lhs.isAdditive || !rhs.isValue) = true
    · rw [if_pos hoperands]
      constructor
      · rintro ⟨s, hs⟩
        cases hs
      · rintro ⟨-, -, -, h⟩
        obtain ⟨hl, hv⟩ := h (by simpa using hop)
        simp [hl, hv] at hoperands
    · rw [if_neg hoperands, hboth]
      obtain ⟨hl, hv⟩ : lhs.isAdditive = false ∧ rhs.isValue = true := by simpa using hoperands
      have hr := isAdditive_of_isValue hv
      simp [hl, hv, hr]

/-- A written term is a chain of values; any other written expression is a chain of terms. -/
theorem Expr.terminals_span {e : Expr} (h : e.Writable) {rest : List Terminal}
    (hr : EndsValue rest) :
    (e.isAdditive = false → TermSpan (e.terminals ++ rest) e rest) ∧
      ExprSpan (e.terminals ++ rest) e rest := by
  induction e generalizing rest with
  | value text =>
    have hterm : TermSpan (valueTerminals text ++ rest) (.value text) rest :=
      .one (.value (valueTerminals_spans h hr))
    exact ⟨fun _ => hterm, .one hterm⟩
  | binary op lhs rhs ihl ihr =>
    -- an additive operation joins terms, any other a term and a value
    obtain ⟨hl, hrw, hadd, htight⟩ := writable_binary.mp h
    have hop : EndsValue (.mark (.operator op) :: (rhs.terminals ++ rest)) := by simp
    rw [terminals, List.append_assoc, List.cons_append]
    by_cases hadditive : op.isAdditive = true
    · refine ⟨fun hno => ?_, .more (ihl hl hop).2 hadditive ((ihr hrw hr).1 hadd)⟩
      simp [isAdditive, hadditive] at hno
    · obtain ⟨hlhs, hvalue⟩ := htight (by simpa using hadditive)
      have hatom : AtomSpan (rhs.terminals ++ rest) rhs rest := by
        cases rhs with
        | value text => exact .value (valueTerminals_spans hrw hr)
        | binary => cases hvalue
      have hterm : TermSpan (lhs.terminals ++ .mark (.operator op) :: (rhs.terminals ++ rest))
          (.binary op lhs rhs) rest :=
        .more ((ihl hl hop).1 hlhs) (by simpa using hadditive) hatom
      exact ⟨fun _ => hterm, .one hterm⟩

/-- **The terminals of a written expression span it.** -/
theorem Expr.spans {e : Expr} (h : e.Writable) (rest : List Terminal) (hr : EndsValue rest) :
    ExprSpan (e.terminals ++ rest) e rest :=
  (terminals_span h hr).2

/-! ## Lists -/

/-- Items with commas between them are a list whose commas may be left out. -/
theorem commaList_spans {α : Type} {X : Span α} {f : α → List Terminal} (as : List α)
    (hX : ∀ a ∈ as, ∀ rest, EndsValue rest → X (f a ++ rest) a rest) (rest : List Terminal)
    (hr : EndsValue rest) : ManySpan (CommaSpan X) (commaList f as ++ rest) as rest := by
  -- behind the first item every one has its comma, which ends a value in the item before
  have hlater : ∀ bs : List α, (∀ b ∈ bs, b ∈ as) →
      EndsValue (bs.flatMap (fun b => .mark (.delimiter .comma) :: f b) ++ rest) ∧
        ManySpan (CommaSpan X)
          (bs.flatMap (fun b => .mark (.delimiter .comma) :: f b) ++ rest) bs rest := by
    intro bs
    induction bs with
    | nil => exact fun _ => ⟨hr, .nil⟩
    | cons b bs ih =>
      intro hmem
      rw [List.forall_mem_cons] at hmem
      obtain ⟨hends, hspan⟩ := ih hmem.2
      rw [List.flatMap_cons, List.cons_append, List.cons_append, List.append_assoc]
      exact ⟨by simp, .cons (.comma (hX b hmem.1 _ hends)) hspan⟩
  cases as with
  | nil => exact .nil
  | cons a as =>
    obtain ⟨hends, hspan⟩ := hlater as fun b hb => List.mem_cons_of_mem _ hb
    rw [commaList, List.append_assoc]
    exact .cons (.plain (hX a List.mem_cons_self _ hends)) hspan

/-- The values among commas are the arguments. -/
theorem ArgumentsSpan.of_commas {ts rest : List Terminal} {as : List String}
    (h : ManySpan (CommaSpan ValueSpan) ts as rest) : ArgumentsSpan ts as rest := by
  induction h with
  | nil => exact .nil
  | cons hv _ ih =>
    cases hv with
    | plain hv => exact .value hv ih
    | comma hv => exact .other (by simp) (.value hv ih)

/-- The names among commas are the actions. -/
theorem ActionsSpan.of_commas {ts rest : List Terminal} {as : List String}
    (h : ManySpan (CommaSpan NameSpan) ts as rest) : ActionsSpan ts as rest := by
  induction h with
  | nil => exact .nil
  | cons hn _ ih =>
    cases hn with
    | plain hn =>
      cases hn
      exact .symbol ih
    | comma hn =>
      cases hn
      exact .other (by simp) (.symbol ih)

/-- Names with commas between them. -/
theorem names_span (ns : List String) (rest : List Terminal) (hr : EndsValue rest) :
    ManySpan (CommaSpan NameSpan) (commaList (fun n => [.symbol n]) ns ++ rest) ns rest :=
  commaList_spans ns (fun _ _ _ _ => .symbol) rest hr

/-! ## Instructions -/

/-- Can everything in the instruction, outside its body, be written and read back? -/
structure Instruction.Readable (i : Instruction) : Prop where
  writable : ∀ e ∈ i.exprs, e.Writable
  named : i.HasNames

theorem Declaration.spans {d : Declaration} (h : d.value.Writable) (rest : List Terminal)
    (hr : EndsValue rest) : AssignmentSpan (d.terminals ++ rest) d rest :=
  .equal (Expr.spans h rest hr)

theorem Progression.spans {p : Progression} (h : p.expr.Writable)
    (hu : ∀ d, p = .assign d → '.' ∉ d.name.toList) (rest : List Terminal) (hr : EndsValue rest) :
    ProgressionSpan (p.terminals ++ rest) p rest := by
  cases p with
  | assign d => exact .plain (Declaration.spans h rest hr) (hu d rfl)
  | evaluate e => exact .evaluate (Expr.spans h rest hr)

namespace Instruction

/-- A written instruction starts with its word. -/
theorem terminals_keyword (i : Instruction) : ∃ k us, i.terminals = .mark (.keyword k) :: us := by
  cases i <;> exact ⟨_, _, rfl⟩

/-- What ends a value stays one behind the instructions of a body. -/
theorem endsValue_bodyTerminals {b : List Instruction} {rest : List Terminal}
    (hr : EndsValue rest) : EndsValue (bodyTerminals b ++ rest) := by
  cases b with
  | nil => exact hr
  | cons i is =>
    obtain ⟨k, us, hi⟩ := terminals_keyword i
    rw [bodyTerminals, hi]
    simp

/-- Instructions in braces are a body. -/
theorem braced_spans {b : List Instruction}
    (h : ∀ rest, EndsValue rest → ManySpan InstructionSpan (bodyTerminals b ++ rest) b rest)
    (rest : List Terminal) : BodySpan (braced (bodyTerminals b) ++ rest) b rest := by
  have hspan := h (.mark (.delimiter .rightBrace) :: rest) (by simp)
  simpa [braced] using BodySpan.braces hspan

mutual

/-- **The terminals of a written instruction span it**, if no step in it sets a name with a
point. -/
theorem spans : ∀ i : Instruction, (∀ j ∈ i.all, j.Readable ∧ j.Undotted) →
    ∀ rest, EndsValue rest → InstructionSpan (i.terminals ++ rest) i rest
  | create group arguments, h, rest, hr => by
    have hw := (h _ (mem_all _)).1.writable
    have hvalues : ManySpan (CommaSpan ValueSpan)
        (commaList valueTerminals arguments ++ .mark (.delimiter .rightParen) :: rest) arguments
        (.mark (.delimiter .rightParen) :: rest) := by
      refine commaList_spans _ (fun a ha _ hends => valueTerminals_spans ?_ hends) _ (by simp)
      exact hw _ (List.mem_map.mpr ⟨a, ha, rfl⟩)
    simpa [terminals, parenthesized] using InstructionSpan.create (.of_commas hvalues)
  | declare d, h, rest, hr => by
    have hw := (h _ (mem_all _)).1.writable
    exact .declare (Declaration.spans (hw _ (by simp [exprs])) rest hr)
  | branch condition body, h, rest, hr => by
    have hw := (h _ (mem_all _)).1.writable
    rw [all, List.forall_mem_cons] at h
    have hbody := braced_spans (body_spans body h.2) rest
    have hcondition := Expr.spans (hw condition (by simp [exprs]))
      (braced (bodyTerminals body) ++ rest) (by simp [braced])
    rw [terminals, List.cons_append, List.append_assoc]
    exact .branch hcondition hbody
  | foreach names collections body, h, rest, hr => by
    have hown := (h _ (mem_all _)).1
    rw [all, List.forall_mem_cons] at h
    have hbody := braced_spans (body_spans body h.2) rest
    have hcollections := commaList_spans (X := ExprSpan) (f := Expr.terminals) collections
      (fun e he _ hends => Expr.spans (hown.writable e he) _ hends)
      (braced (bodyTerminals body) ++ rest) (by simp [braced])
    -- the first name stands by itself in a loop, so it is taken off the list of names
    obtain ⟨n, ns, rfl⟩ := List.exists_cons_of_ne_nil hown.named
    have hnames := names_span (n :: ns) (.mark (.keyword .inWord) ::
      (commaList Expr.terminals collections ++ (braced (bodyTerminals body) ++ rest))) (by simp)
    simp only [commaList, List.cons_append, List.nil_append] at hnames
    obtain ⟨ns', hns', hlater⟩ := names_of_symbol hnames
    cases hns'
    have hspan := InstructionSpan.foreach (n := n) hlater hcollections hbody
    simpa [terminals, commaList] using hspan
  | loop start condition step body, h, rest, hr => by
    have hown := h _ (mem_all _)
    have hw := hown.1.writable
    rw [all, List.forall_mem_cons] at h
    have hbody := braced_spans (body_spans body h.2) rest
    have hstep := Progression.spans (hw step.expr (by simp [exprs]))
      (fun d hd => by subst hd; exact hown.2)
      (braced (bodyTerminals body) ++ rest) (by simp [braced])
    have hcondition := Expr.spans (hw condition (by simp [exprs]))
      (.mark (.delimiter .semicolon) :: (step.terminals ++
        (braced (bodyTerminals body) ++ rest))) (by simp)
    have hstart := Declaration.spans (hw start.value (by simp [exprs]))
      (.mark (.delimiter .semicolon) :: (condition.terminals ++
        .mark (.delimiter .semicolon) :: (step.terminals ++
          (braced (bodyTerminals body) ++ rest)))) (by simp)
    have hspan := InstructionSpan.loop (.letWord hstart) hcondition hstep hbody
    simpa [terminals] using hspan

theorem body_spans : ∀ b : List Instruction, (∀ j ∈ allIn b, j.Readable ∧ j.Undotted) →
    ∀ rest, EndsValue rest → ManySpan InstructionSpan (bodyTerminals b ++ rest) b rest
  | [], _, rest, _ => .nil
  | i :: is, h, rest, hr => by
    rw [allIn, List.forall_mem_append] at h
    rw [bodyTerminals, List.append_assoc]
    exact .cons (spans i h.1 _ (endsValue_bodyTerminals hr)) (body_spans is h.2 rest hr)

end

end Instruction

/-! ## Blocks -/

theorem DataInstance.spans (d : DataInstance) (rest : List Terminal) :
    DataInstanceSpan (d.terminals ++ rest) d rest := by
  have hvalues : ManySpan (CommaSpan FieldValueSpan)
      (commaList FieldValue.terminals d.values ++ .mark (.delimiter .rightParen) :: rest) d.values
      (.mark (.delimiter .rightParen) :: rest) :=
    commaList_spans _ (fun _ _ _ _ => .equal) _ (by simp)
  simpa [terminals, parenthesized] using DataInstanceSpan.parens (.plain hvalues)

/-- Data instances stand one behind the other. -/
theorem instances_span (ds : List DataInstance) (rest : List Terminal) :
    ManySpan (CommaSpan DataInstanceSpan) (ds.flatMap DataInstance.terminals ++ rest) ds rest := by
  induction ds with
  | nil => exact .nil
  | cons d ds ih =>
    rw [List.flatMap_cons, List.append_assoc]
    exact .cons (.plain (d.spans _)) ih

/-- **The terminals of a written block span it.** -/
theorem Block.spans {b : Block} (h : ∀ i ∈ b.instructions, i.Readable ∧ i.Undotted)
    (rest : List Terminal) : BlockSpan (b.terminals ++ rest) b rest := by
  cases b with
  | data name fields =>
    have hfields : ManySpan (CommaSpan FieldSpan)
        (commaList Field.terminals fields ++ .mark (.delimiter .rightBrace) :: rest) fields
        (.mark (.delimiter .rightBrace) :: rest) :=
      commaList_spans _ (fun _ _ _ _ => .colon) _ (by simp)
    simpa [terminals, braced] using BlockSpan.data (n := name) (.plain hfields)
  | group name parameters instances =>
    have hinstances := instances_span instances (.mark (.delimiter .rightBrace) :: rest)
    have hparameters : ManySpan (CommaSpan ParameterSpan)
        (commaList Parameter.terminals parameters ++ .mark (.delimiter .rightParen) ::
          .mark (.delimiter .leftBrace) :: (instances.flatMap DataInstance.terminals ++
            .mark (.delimiter .rightBrace) :: rest)) parameters
        (.mark (.delimiter .rightParen) :: .mark (.delimiter .leftBrace) ::
          (instances.flatMap DataInstance.terminals ++ .mark (.delimiter .rightBrace) :: rest)) :=
      commaList_spans _ (fun _ _ _ _ => .colon) _ (by simp)
    simpa [terminals, parenthesized, braced] using
      BlockSpan.group (n := name) (.plain hparameters) (.plain hinstances)
  | action name body =>
    exact .action (Instruction.braced_spans (Instruction.body_spans body h) rest)
  | run actions body =>
    have hbody := Instruction.braced_spans (Instruction.body_spans body h) rest
    have hactions := names_span actions (.mark (.delimiter .rightParen) ::
      (braced (Instruction.bodyTerminals body) ++ rest)) (by simp)
    simpa [terminals, parenthesized] using BlockSpan.run (.of_commas hactions) hbody

/-- **The terminals of a written program derive it**, if every expression in it can be written,
every loop over collections has a name, and no step of a loop sets a name with a point. -/
theorem Program.terminals_derive {p : Program}
    (h : ∀ i ∈ p.instructions, i.Readable ∧ i.Undotted) : Derives p.terminals p := by
  have hblocks : ∀ bs : List Block, (∀ b ∈ bs, b ∈ p.blocks) →
      ManySpan BlockSpan (bs.flatMap Block.terminals) bs [] := by
    intro bs
    induction bs with
    | nil => exact fun _ => .nil
    | cons b bs ih =>
      intro hmem
      rw [List.forall_mem_cons] at hmem
      refine .cons (Block.spans (fun i hi => h i ?_) _) (ih hmem.2)
      exact List.mem_flatMap.mpr ⟨b, hmem.1, hi⟩
  exact hblocks p.blocks fun b hb => hb

end BlockLang
