import BlockLang.Proofs.Lookahead.Progress

/-!
# The rules of the grammar are predictive

Every parse of the grammar is put together from single steps, each told by the terminal in front.
The proofs follow the text of the parses. Only where a parse looks at a token itself is there
something to show, that it sees no more of it than its terminal or complains about it; and where a
parse repeats a step, that the step is productive.
-/

namespace BlockLang

namespace Parse

variable {α : Type}

/-! ## Expressions -/

/-- The text of a value behind its first symbol `s`. -/
def memberText (s : String) : Parse String :=
  sees (.delimiter .dot) >>= fun b =>
    if b = true then skip >>= fun _ => peek >>= fun o => o.elim (pure (s ++ ".")) fun member =>
      if member.kind = .symbol then skip >>= fun _ => pure (s ++ "." ++ member.value)
      else pure (s ++ ".")
    else pure s

theorem predictive_memberText (s : String) : Predictive (memberText s) := by
  refine .sees _ (.skipping ?_) (.pure s)
  refine .peekSymbol (p := fun m => skip >>= fun _ => pure (s ++ "." ++ m)) (q := pure (s ++ "."))
    (fun t ht => if_pos ht) (fun _ _ => rfl) (fun c t _ ht => ?_) (fun m => .skipping (.pure _))
    (.pure _)
  rw [Option.elim_some, if_neg ht]

theorem predictive_valueText : Predictive valueText := by
  refine .peekSymbol (p := fun s => skip >>= fun _ => memberText s)
    (q := complain .unexpectedToken (fun v => s!"Expected a value, got '{v}'.")
      "Expected a value, got end of input.") (fun t ht => ?_)
    (fun c hc => (complain_of_none hc).symm) (fun c t hc ht => ?_)
    (fun s => (predictive_memberText s).skipping) (.complain (by decide) _ _)
  · refine (if_pos ht).trans (funext fun c => ?_)
    simp only [memberText, skip_bind_apply, sees_bind_apply]
    split
    · simp only [skip_bind_apply, peek_bind_apply]
      cases c.advance.advance.peek <;> rfl
    · rfl
  · rw [complain_of_some hc]
    simp only [if_neg ht]

theorem predictive_value : Predictive value :=
  predictive_valueText.map Expr.value

/-- An operator step, told by the kind of the next token. -/
def operatorAt (admits : Operator → Bool) (operand : Parse Expr) :
    Option Kind → Parse (Option (Operator × Expr))
  | some (.operator op) =>
    if admits op then do
      skip
      return some (op, ← operand)
    else return none
  | _ => return none

theorem operatorStep_eq (admits : Operator → Bool) (operand : Parse Expr) :
    operatorStep admits operand =
      look fun w => operatorAt admits operand (w.map Terminal.kind) := by
  funext c
  have hkind : c.front.map Terminal.kind = c.peekKind := by
    cases h : c.peek <;> simp [Cursor.front, Cursor.peekKind, h]
  rw [look, hkind]
  rfl

theorem predictive_operatorStep (admits : Operator → Bool) {operand : Parse Expr}
    (h : Predictive operand) : Predictive (operatorStep admits operand) := by
  rw [operatorStep_eq]
  refine .look fun w => ?_
  unfold operatorAt
  split
  · split
    · exact .skipping (h.map fun e => some (_, e))
    · exact .pure none
  · exact .pure none

theorem productive_operatorStep (admits : Operator → Bool) {operand : Parse Expr} {X : Span Expr}
    {F : List Terminal → Prop} (h : Predictive operand) (hr : Recognizes operand X F)
    (hX : ∀ {ts e rest}, X ts e rest → rest.length < ts.length) :
    Productive (operatorStep admits operand) := by
  refine (predictive_operatorStep admits h).productive (recognizes_operatorStep hr) ?_
  rintro ts a rest ⟨-, hspan⟩
  exact Nat.lt_succ_of_lt (hX hspan)

theorem predictive_term (first : Option Expr) : Predictive (term first) := by
  have htail := (predictive_operatorStep (!·.isAdditive) predictive_value).many
    (productive_operatorStep _ predictive_value recognizes_value AtomSpan.shorter)
  unfold term
  cases first with
  | none => exact predictive_value.bind fun _ => htail.map _
  | some e => exact (Predictive.pure e).bind fun _ => htail.map _

theorem predictive_expressionFrom (first : Option Expr) : Predictive (expressionFrom first) :=
  (predictive_term first).bind fun _ =>
    ((predictive_operatorStep _ (predictive_term none)).many
      (productive_operatorStep _ (predictive_term none) recognizes_term TermSpan.shorter)).map _

theorem predictive_expression : Predictive expression :=
  predictive_expressionFrom none

/-! ## Instructions -/

theorem predictive_assignment : Predictive assignment :=
  (Predictive.expectSymbol (by decide) _).bind fun _ => .expect _ _ (predictive_expression.map _)

theorem predictive_declaration : Predictive declaration := by
  rw [declaration_eq]
  exact predictive_assignment.skipping.sees _ predictive_assignment

/-- A step of a loop sets its first value if an `=` follows, and a value with a point is complained
about at that `=`. -/
theorem predictive_bareProgression : Predictive bareProgression := by
  refine predictive_valueText.bind fun first => ?_
  refine .peek (fun w => if w.map Terminal.kind = some (.delimiter .equal) then
      if first.toList.contains '.' then
        complain .missingName (fun _ => s!"Expected name of variable to declare. Got '{first}'.") ""
      else skip >>= fun _ => expression >>= fun e => pure (.assign ⟨first, e⟩)
    else expressionFrom (some (.value first)) >>= fun e => pure (.evaluate e)) (fun c => ?_)
    fun w => ?_
  · cases hc : c.peek with
    | none => simp [Cursor.front_of_none hc]
    | some t =>
      simp only [Cursor.front_of_some hc, Option.map_some, Token.kind_terminal, Option.some.injEq]
      by_cases ht : t.kind = .delimiter .equal
      · simp only [if_pos ht]
        by_cases hdot : first.toList.contains '.' = true
        · rw [if_pos hdot, if_pos hdot, complain_of_some hc]
          rfl
        · simp only [if_neg hdot]
      · simp only [if_neg ht]
  · split
    · split
      · exact .complain (by decide) _ _
      · exact (predictive_expression.map _).skipping
    · exact (predictive_expressionFrom _).map _

theorem predictive_progression : Predictive progression := by
  rw [progression_eq]
  exact (predictive_declaration.map _).sees _ predictive_bareProgression

theorem predictive_argumentStep : Predictive argumentStep := by
  refine .sees _ (.pure none) (.requireMore _ (fun w => onSymbol
    (fun _ => valueText >>= fun v => pure (some (some v))) (skip >>= fun _ => pure (some none))
    (some w)) (fun c t _ => ?_) fun w =>
      .onSymbol (fun _ => predictive_valueText.map _) (.skipping (.pure _)) _)
  by_cases ht : t.kind = .symbol
  · rw [onSymbol_of_eq ht]
    simp only [if_pos ht]
  · rw [onSymbol_of_ne ht]
    simp only [if_neg ht]

theorem productive_argumentStep : Productive argumentStep := by
  refine predictive_argumentStep.productive recognizes_argumentStep ?_
  rintro ts a rest (h | -)
  · exact (valueSpan_cons h).2
  · exact Nat.lt_succ_self _

theorem predictive_arguments : Predictive (many argumentStep) :=
  predictive_argumentStep.many productive_argumentStep

theorem predictive_creation : Predictive creation :=
  .skipping ((Predictive.expectSymbol (by decide) _).bind fun _ =>
    .expect _ _ (predictive_arguments.bind fun _ => .skipping (.pure _)))

theorem predictive_loopNameStep : Predictive loopNameStep :=
  .sees _ (.pure none)
    (.afterMore _ (.skipComma ((Predictive.expectSymbol (by decide) _).map some)))

theorem productive_loopNameStep : Productive loopNameStep :=
  predictive_loopNameStep.productive recognizes_loopNameStep (CommaSpan.shorter NameSpan.shorter)

theorem predictive_loopNames : Predictive (many loopNameStep) :=
  predictive_loopNameStep.many productive_loopNameStep

theorem predictive_collectionStep : Predictive collectionStep :=
  .sees _ (.pure none) (.afterMore _ (.skipComma (predictive_expression.map some)))

theorem productive_collectionStep : Productive collectionStep :=
  predictive_collectionStep.productive recognizes_collectionStep
    (CommaSpan.shorter ExprSpan.shorter)

theorem predictive_collections : Predictive (many collectionStep) :=
  predictive_collectionStep.many productive_collectionStep

/-- An instruction, told by the kind of its first token. -/
def instructionOf (inner : String → Parse (List Instruction)) : Kind → Parse Instruction
  | .keyword .create => creation
  | .keyword .ifWord => branch inner
  | .keyword .foreach => foreach inner
  | .keyword .forWord => loop inner
  | .keyword .letWord => declaration >>= fun d => pure (.declare d)
  | _ => complain .expectedInstruction (fun v => s!"Expected an instruction, got '{v}'.") ""

section

variable {inner : String → Parse (List Instruction)} (h : ∀ what, Predictive (inner what))

include h

theorem predictive_branch : Predictive (branch inner) :=
  .skipping (predictive_expression.bind fun _ => (h _).map _)

theorem predictive_foreach : Predictive (foreach inner) := by
  have hclauses : Predictive (foreachClauses inner) :=
    predictive_loopNames.bind fun _ =>
      .skipping (predictive_collections.bind fun _ => (h _).map _)
  rw [foreach_eq]
  refine .skipping (.requireMore _ (fun w => onSymbol (fun _ => foreachClauses inner)
    (complain .unexpectedToken (fun v => s!"Unexpected token in foreach: {v}.") "") (some w))
    (fun c t hc => ?_) fun w => .onSymbol (fun _ => hclauses) (.complain (by decide) _ _) _)
  by_cases ht : t.kind = .symbol
  · rw [if_pos ht, onSymbol_of_eq ht]
  · rw [if_neg ht, onSymbol_of_ne ht, complain_of_some hc]

theorem predictive_loop : Predictive (loop inner) :=
  .skipping (predictive_declaration.bind fun _ => .expect _ _ (predictive_expression.bind fun _ =>
    .expect _ _ (predictive_progression.bind fun _ => (h _).map _)))

/-- **An instruction** is predictive if its bodies are. -/
theorem predictive_instructionWith : Predictive (instructionWith inner) := by
  refine .requireMore _ (fun w => instructionOf inner w.kind) (fun c t hc => ?_) fun w => ?_
  · have hother : (throw (.about .expectedInstruction
        s!"Expected an instruction, got '{t.value}'." t) : Parse Instruction) c =
        complain .expectedInstruction (fun v => s!"Expected an instruction, got '{v}'.") "" c := by
      rw [complain_of_some hc]
    rw [Token.kind_terminal]
    cases hk : t.kind with
    | keyword k =>
      cases k with
      | data | group | doWord | run | inWord => exact hother
      | _ => rfl
    | _ => exact hother
  · unfold instructionOf
    split
    · exact predictive_creation
    · exact predictive_branch h
    · exact predictive_foreach h
    · exact predictive_loop h
    · exact predictive_declaration.map _
    · exact .complain (by decide) _ _

theorem predictive_bodyStep (what : String) : Predictive (bodyStep inner what) :=
  .sees _ (.pure none) (.afterMore _ ((predictive_instructionWith h).map some))

theorem productive_bodyStep {room : Nat}
    (hr : ∀ what, Recognizes (inner what) (RoomSpan room) Anything) (what : String) :
    Productive (bodyStep inner what) :=
  (predictive_bodyStep h what).productive (recognizes_bodyStep what hr) fun h => h.1.shorter

end

/-- **A body** is predictive. One that is one too many is refused at its brace, which has been read
by then. -/
theorem predictive_bodyWithin (limit : Int) (room : Nat) (what : String) :
    Predictive (bodyWithin limit room what) := by
  induction room generalizing what with
  | zero =>
    refine .expect_bind _ (p := complainPast .nestingTooDeep
      (fun _ => s!"{what} is nested more than {limit} levels deep.") "") (fun c t hc => ?_)
      (.complainPast (by decide) _ _)
    rw [complainPast, Cursor.complaint, hc]
    rfl
  | succ room ih =>
    have hmany := (predictive_bodyStep ih what).many
      (productive_bodyStep ih (recognizes_bodyWithin limit room) what)
    exact .expect _ _ (hmany.deeper.bind fun _ => .skipping (.pure _))

theorem predictive_body (limit : Int) (what : String) : Predictive (body limit what) :=
  predictive_bodyWithin limit limit.toNat what

/-! ## Blocks -/

theorem predictive_separated (close : Kind) {item : Parse α} (what : String)
    (h : Predictive item) (hitems : Progresses item) : Predictive (separated close item what) := by
  have hitem := h.map some
  have hstep : Predictive (separatedStep close item what) :=
    .sees _ (.pure none) (.afterMore _
      (.sees _ (.skipping (.sees _ (.pure none) (.afterMore _ hitem))) hitem))
  exact (hstep.many (productive_separatedStep close what hitems)).bind fun as =>
    .skipping (.pure as)

/-- A name, a token and another symbol. -/
theorem predictive_pair {tag tag' : SyntaxError.Tag} (htag : tag ∈ SyntaxError.Tag.violations)
    (htag' : tag' ∈ SyntaxError.Tag.violations) (k : Kind) (message : String)
    (what message' : String → String) (f : String → String → α) :
    Predictive (expectSymbol tag message >>= fun n => expect k (what n) >>= fun _ =>
      expectSymbol tag' (message' n) >>= fun v => pure (f n v)) :=
  (Predictive.expectSymbol htag _).bind fun _ =>
    .expect _ _ ((Predictive.expectSymbol htag' _).map _)

theorem predictive_field : Predictive field :=
  predictive_pair (by decide) (by decide) _ _ _ _ Field.mk

theorem progresses_field : Progresses field :=
  predictive_field.progresses recognizes_field fun _ => isMember_field.shorter

theorem predictive_parameter : Predictive parameter :=
  predictive_pair (by decide) (by decide) _ _ _ _ Parameter.mk

theorem progresses_parameter : Progresses parameter :=
  predictive_parameter.progresses recognizes_parameter fun _ => isMember_parameter.shorter

theorem predictive_fieldValue : Predictive fieldValue :=
  predictive_pair (by decide) (by decide) _ _ _ _ FieldValue.mk

theorem progresses_fieldValue : Progresses fieldValue :=
  predictive_fieldValue.progresses recognizes_fieldValue fun _ => isMember_fieldValue.shorter

theorem predictive_dataInstance : Predictive dataInstance :=
  (Predictive.expectSymbol (by decide) _).bind fun _ =>
    .expect _ _ ((predictive_separated _ _ predictive_fieldValue progresses_fieldValue).map _)

theorem progresses_dataInstance : Progresses dataInstance :=
  predictive_dataInstance.progresses recognizes_dataInstance fun _ => isMember_dataInstance.shorter

theorem predictive_data : Predictive data :=
  (Predictive.expectSymbol (by decide) _).bind fun _ =>
    .expect _ _ ((predictive_separated _ _ predictive_field progresses_field).map _)

theorem predictive_group : Predictive group :=
  (Predictive.expectSymbol (by decide) _).bind fun _ =>
    .expect _ _ ((predictive_separated _ _ predictive_parameter progresses_parameter).bind fun _ =>
      .expect _ _
        ((predictive_separated _ _ predictive_dataInstance progresses_dataInstance).map _))

theorem predictive_action (limit : Int) : Predictive (action limit) :=
  (Predictive.expectSymbol (by decide) _).bind fun _ => (predictive_body limit _).map _

theorem predictive_actionStep : Predictive actionStep := by
  refine .sees _ (.pure none) (.requireMore _ (fun w => onSymbol
    (fun s => skip >>= fun _ => pure (some (some s))) (skip >>= fun _ => pure (some none)) (some w))
    (fun c t _ => ?_) fun w => .onSymbol (fun _ => .skipping (.pure _)) (.skipping (.pure _)) _)
  by_cases ht : t.kind = .symbol
  · rw [onSymbol_of_eq ht, if_pos ht]
  · rw [onSymbol_of_ne ht, if_neg ht]

theorem productive_actionStep : Productive actionStep := by
  refine predictive_actionStep.productive recognizes_actionStep ?_
  rintro ts a rest (_ | _) <;> exact Nat.lt_succ_self _

theorem predictive_actions : Predictive (many actionStep) :=
  predictive_actionStep.many productive_actionStep

theorem predictive_run (limit : Int) : Predictive (run limit) :=
  .expect _ _ (predictive_actions.bind fun _ => .skipping ((predictive_body limit _).map _))

/-- A block behind its first token. -/
def blockBehind (limit : Int) (t : Token) : Parse Block :=
  match t.kind with
  | .keyword .data => data
  | .keyword .group => group
  | .keyword .doWord => action limit
  | .keyword .run => run limit
  | _ => throw (.about .unexpectedToken s!"Unexpected token: {t.value}" t)

theorem blockStep_eq (limit : Int) :
    blockStep limit = peek >>= fun o =>
      match o with
      | none => pure none
      | some t => skip >>= fun _ => blockBehind limit t >>= fun b => pure (some b) := by
  funext c
  cases hc : c.peek with
  | none => simp only [blockStep, peek_bind_apply, hc]
  | some t =>
    simp only [blockStep, peek_bind_apply, hc, block, bind_assoc, next_bind_apply]
    rfl

/-- A block, told by the kind of its first token, which has been read when it is refused. -/
def blockOf (limit : Int) : Kind → Parse Block
  | .keyword .data => skip >>= fun _ => data
  | .keyword .group => skip >>= fun _ => group
  | .keyword .doWord => skip >>= fun _ => action limit
  | .keyword .run => skip >>= fun _ => run limit
  | _ => complainPast .unexpectedToken (fun v => s!"Unexpected token: {v}") ""

theorem predictive_blockOf (limit : Int) (k : Kind) : Predictive (blockOf limit k) := by
  unfold blockOf
  split
  · exact predictive_data.skipping
  · exact predictive_group.skipping
  · exact (predictive_action limit).skipping
  · exact (predictive_run limit).skipping
  · exact .complainPast (by decide) _ _

/-- **A block** is told by its first token. -/
theorem block_of_some (limit : Int) {c : Cursor} {t : Token} (h : c.peek = some t) :
    block limit c = blockOf limit t.kind c := by
  have hother : ∀ e : SyntaxError, e = .about .unexpectedToken s!"Unexpected token: {t.value}" t →
      (throw e : Parse Block) c.advance =
        complainPast .unexpectedToken (fun v => s!"Unexpected token: {v}") "" c := by
    rintro _ rfl
    rw [complainPast, Cursor.complaint, h]
    rfl
  rw [block, next_bind_apply, h]
  dsimp only
  cases t.kind with
  | keyword k =>
    cases k with
    | data | group | doWord | run => rfl
    | _ => exact hother _ rfl
  | _ => exact hother _ rfl

theorem predictive_blockStep (limit : Int) : Predictive (blockStep limit) := by
  refine .peek (fun w => w.elim (pure none) fun w =>
    blockOf limit w.kind >>= fun b => pure (some b)) (fun c => ?_) fun w => ?_
  · cases hc : c.peek with
    | none => rw [Cursor.front_of_none hc, Option.elim_none]
    | some t =>
      rw [Cursor.front_of_some hc, Option.elim_some, Token.kind_terminal]
      exact bind_apply_congr (block_of_some limit hc) _
  · cases w with
    | none => exact .pure none
    | some w => exact (predictive_blockOf limit w.kind).map some

theorem productive_blockStep (limit : Int) : Productive (blockStep limit) :=
  (predictive_blockStep limit).productive (recognizes_blockStep limit) fun h => h.1.shorter

/-- Blocks are repeated for as long as there is a token. -/
theorem predictive_blocks (limit : Int) : Predictive (many (blockStep limit)) :=
  (predictive_blockStep limit).many (productive_blockStep limit)

/-- **A program is predictive.** -/
theorem predictive_program (limit : Int) : Predictive (program limit) :=
  (predictive_blocks limit).map _

end Parse

/-- **Programs from related token lists**: the same program is returned for both, or errors that the
simulation relates. -/
theorem Program.ofTokens_agree {R : Cursor → Cursor → Prop} {E : SyntaxError → SyntaxError → Prop}
    (hs : Parse.Simulation R E) (limit : Int) {ts us : List Token} (h : R ⟨[], ts, 0⟩ ⟨[], us, 0⟩) :
    (∃ p, ofTokens limit ts = .ok p ∧ ofTokens limit us = .ok p) ∨
      ∃ e e', ofTokens limit ts = .error e ∧ ofTokens limit us = .error e' ∧ E e e' := by
  have hagree := (Parse.predictive_program limit).agree hs h
  unfold ofTokens
  generalize Parse.program limit ⟨[], ts, 0⟩ = x at hagree ⊢
  generalize Parse.program limit ⟨[], us, 0⟩ = y at hagree ⊢
  cases hagree with
  | ok _ => exact .inl ⟨_, rfl, rfl⟩
  | error he => exact .inr ⟨_, _, rfl, rfl, he⟩

/-- **The errors of programs keep to an invariant.** -/
theorem Program.ofTokens_error_of_invariant {P : Cursor → Prop} {E : SyntaxError → Prop}
    (hinv : Parse.Invariant P E) {limit : Int} {ts : List Token} {e : SyntaxError}
    (hstart : P ⟨[], ts, 0⟩) (h : ofTokens limit ts = .error e) : E e := by
  rcases ofTokens_agree hinv.simulation limit ⟨rfl, hstart⟩ with ⟨p, hts, -⟩ | ⟨e', -, hts, -, he⟩
  · rw [hts] at h
    cases h
  · rw [hts] at h
    cases h
    exact he

end BlockLang
