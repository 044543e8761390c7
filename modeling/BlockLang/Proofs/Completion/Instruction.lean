import BlockLang.Proofs.Completion.Basic
import BlockLang.Proofs.Recognition.Instruction

/-!
# Completion of expressions and instructions

What is missing of an expression is a value, and what is missing of an instruction is its closing
tokens and the parts in front of them. A body is completed by its brace.
-/

namespace BlockLang

namespace Parse

/-! ## Expressions -/

theorem spells_value : Spells ValueSpan :=
  ⟨[.symbol "x"], by simp, "x", fun _ ht => .name ht.1⟩

theorem spells_atom : Spells AtomSpan :=
  (spells_value.map Expr.value).mono fun ts e rest => by
    rintro ⟨s, h, rfl⟩
    exact .value h

theorem spells_term : Spells TermSpan := spells_atom.mono fun _ _ _ h => .one h

theorem spells_expression : Spells ExprSpan := spells_term.mono fun _ _ _ h => .one h

/-- A value that has begun has ended, since nothing has to come behind its symbol. -/
theorem valueText_incomplete {c c' : Cursor} {e : SyntaxError} (he : EndFree c.rest)
    (h : valueText c = .error e c') (hi : e.tag = .incompleteInput) : c.rest = [] := by
  obtain ⟨rd, ts, d⟩ := c
  cases ts with
  | nil => rfl
  | cons t ts =>
    obtain ⟨ht, hts⟩ := endFree_cons.mp he
    by_cases hsym : t.kind = .symbol
    · obtain ⟨s, c₁, hrun, -⟩ := valueText_spans rd d hsym hts
      rw [hrun] at h
      cases h
    · rw [valueText_of_ne ht hsym] at h
      cases h
      cases hi

theorem completes_valueText : Completes valueText ValueSpan := by
  intro c e c' he h hi
  rw [valueText_incomplete he h hi]
  exact spells_value

theorem completes_value : Completes value AtomSpan :=
  (completes_valueText.map Expr.value).mono fun ts e rest => by
    rintro ⟨s, h, rfl⟩
    exact .value h

section

variable {admits : Operator → Bool} {X : Span Expr} {F : List Terminal → Prop}

/-- Behind an operator an operand is missing. -/
theorem completes_operatorStep (admits : Operator → Bool) {operand : Parse Expr}
    (h : Completes operand X) :
    CompletesItem (operatorStep admits operand) (OperatorSpan admits X) := by
  intro c e c' he hp hi
  by_cases hno : NoOperator admits (terminals c.rest)
  · rw [operatorStep_of_none he hno] at hp
    cases hp
  · obtain ⟨rd, ts, d⟩ := c
    cases ts with
    | nil => exact .inl rfl
    | cons t ts =>
      obtain ⟨op, ht, hop⟩ : ∃ op, t.terminal = .mark (.operator op) ∧ admits op = true := by
        simpa using hno
      have hk := (Token.terminal_eq_mark (by simp)).mp ht
      rw [operatorStep_of_some hk hop] at hp
      rcases bind_eq_error.mp hp with h₁ | ⟨a, c₁, -, h₂⟩
      · obtain ⟨us, hus, a, ha⟩ := h (c := ⟨t :: rd, ts, d⟩) (endFree_cons.mp he).2 h₁ hi
        refine .inr ⟨us, hus, (op, a), fun tail htail => ?_⟩
        rw [Span.after, terminals_cons, ht]
        exact .operator hop (ha tail htail)
      · cases h₂

/-- **A chain** is completed by the operand that is missing. -/
theorem completes_chain {first operand : Parse Expr} (op : Operator) (hop : admits op = true)
    (hfirst : Completes first X) (hrf : Recognizes first X F) (hoperand : Completes operand X)
    (hro : Recognizes operand X F) (hx : Extends X)
    (hX : ∀ {ts e rest}, X ts e rest → rest.length < ts.length) (hspell : Spells X) :
    Completes (first >>= fun lhs => many (operatorStep admits operand) >>= fun tail =>
      pure (joinLeft lhs tail)) (ChainSpan admits X) := by
  have hextends : Extends (OperatorSpan admits X) := by
    intro ts a rest hspan xs hxs
    cases hspan with
    | operator ha h => exact .operator ha (hx h xs hxs)
  have hmany := Completes.many (completes_operatorStep admits hoperand)
    (recognizes_operatorStep hro).isSound (fun h => by cases h; assumption) hextends (by
      rintro ts a rest ⟨-, h⟩
      have := hX h
      simp only [List.length_cons]
      omega)
  have hafter : ∀ lhs, Spells (Span.after [.mark (.operator op)] fun ts e rest =>
      ∃ tail, ManySpan (OperatorSpan admits X) ts tail rest ∧ e = joinLeft lhs tail) := by
    intro lhs
    obtain ⟨us, hus, e, he⟩ := hspell
    exact ⟨us, hus, _, fun tail ht => ⟨_, .cons (.operator hop (he tail ht)) .nil, rfl⟩⟩
  refine (hfirst.bind hrf.isSound hx (fun lhs => hmany.map (joinLeft lhs)) (by simp) hafter).mono ?_
  exact fun ts e rest h => chainSpan_iff.mpr h

end

theorem completes_term : Completes (term none) TermSpan :=
  completes_chain .mul rfl completes_value recognizes_value completes_value
    recognizes_value extends_atom AtomSpan.shorter spells_atom

/-- **An expression** is completed by the value that is missing. -/
theorem completes_expression : Completes expression ExprSpan :=
  completes_chain .add rfl completes_term recognizes_term completes_term recognizes_term
    (extends_chain extends_atom) TermSpan.shorter spells_term

/-! ## Assignments -/

theorem spells_assignment : Spells AssignmentSpan := by
  obtain ⟨us, hus, e, he⟩ := spells_expression
  exact ⟨.symbol "x" :: .mark (.delimiter .equal) :: us, by simp [hus], ⟨"x", e⟩,
    fun tail ht => .equal (he tail ht)⟩

theorem completes_assignment : Completes assignment AssignmentSpan := by
  have hvalue := fun name => completes_expression.map (Declaration.mk name)
  refine ((Completes.expectSymbol _ (by simp) _).between (Recognizes.expectSymbol _ _).isSound
    extends_name (k := .delimiter .equal) (by simp) _ hvalue
    fun name => spells_expression.map _).mono ?_
  rintro ts d rest ⟨name, ms, ⟨⟩, e, he, rfl⟩
  exact .equal he

theorem completes_declaration : Completes declaration DeclarationSpan := by
  rw [declaration_eq]
  refine (completes_assignment.skip.sees (k := .keyword .letWord) (by simp)
    completes_assignment).mono ?_
  rintro ts d rest (⟨⟨us, rfl⟩, h⟩ | h)
  · exact .letWord h
  · exact .plain h

theorem spells_progression : Spells ProgressionSpan :=
  (spells_expression.map Progression.evaluate).mono fun ts p rest => by
    rintro ⟨e, h, rfl⟩
    exact .evaluate h

/-- Behind `=` an expression is missing, and anywhere else in the clause the rest of one. -/
theorem completes_bareProgression : Completes bareProgression ProgressionSpan := by
  intro c e c' he h hi
  cases hv : valueText c with
  | error e₁ c₁ =>
    rw [bareProgression, bind_of_error hv] at h
    cases h
    rw [valueText_incomplete he hv hi]
    exact spells_progression
  | ok first c₁ =>
    obtain ⟨hsuf, hspan⟩ := recognizes_valueText.sound he hv
    by_cases hequal : StartsWith (.delimiter .equal) (terminals c₁.rest)
    · -- the name and `=` have been read, so the expression is what is missing
      obtain ⟨rd, t, ts, d, rfl, ht⟩ := exists_token_of_startsWith (by simp) hequal
      by_cases hdot : '.' ∈ first.toList
      · rw [bareProgression_of_point hv ht hdot] at h
        cases h
        cases hi
      · rw [bareProgression_of_equal hv ht hdot] at h
        have hcons := valueSpan_of_no_point hspan hdot
        rcases bind_eq_error.mp h with h₁ | ⟨a, c₁, -, h₂⟩
        · obtain ⟨us, hus, a, ha⟩ := completes_expression (c := ⟨t :: rd, ts, d⟩)
            (endFree_cons.mp (he.of_suffix hsuf)).2 h₁ hi
          refine ⟨us, hus, .assign ⟨first, a⟩, fun tail htail => ?_⟩
          rw [Span.after, hcons, terminals_cons, (Token.terminal_eq_mark (by simp)).mpr ht]
          exact .plain (.equal (ha tail htail)) hdot
        · cases h₂
    · -- the clause is an expression, of which more is missing than its first value
      rw [bareProgression_of_ne hv hequal (he.of_suffix hsuf)] at h
      refine (completes_expression.map Progression.evaluate he h hi).mono ?_
      rintro us p rest ⟨a, ha, rfl⟩
      exact .evaluate ha

theorem completes_progression : Completes progression ProgressionSpan := by
  rw [progression_eq]
  refine ((completes_declaration.map Progression.assign).sees (k := .keyword .letWord) (by simp)
    completes_bareProgression).mono ?_
  rintro ts p rest (⟨⟨us, rfl⟩, d, hd, rfl⟩ | h)
  · cases hd with
    | plain hd => cases hd
    | letWord hd => exact .letWord hd
  · exact h

/-! ## Instructions without bodies -/

theorem completes_argumentStep : CompletesItem argumentStep ArgumentSpan := by
  rintro ⟨rd, ts, d⟩ e c' he h hi
  refine .inl ?_
  cases ts with
  | nil => rfl
  | cons t ts =>
    have ht := (endFree_cons.mp he).1
    unfold argumentStep at h
    rw [sees_bind_apply] at h
    by_cases hs : Cursor.sees ⟨rd, t :: ts, d⟩ (.delimiter .rightParen) = true
    · rw [if_pos hs] at h
      cases h
    · rw [if_neg hs, bind_of_ok (requireMore_cons ht _)] at h
      by_cases hsym : t.kind = .symbol
      · rw [if_pos hsym] at h
        rcases bind_eq_error.mp h with h₁ | ⟨a, c₁, -, h₂⟩
        · exact valueText_incomplete he h₁ hi
        · cases h₂
      · rw [if_neg hsym] at h
        cases h

theorem extends_argument : Extends ArgumentSpan := by
  intro ts a rest hspan xs hxs
  cases hspan with
  | value hv => exact .value (extends_value hv xs hxs)
  | other hk => exact .other hk

theorem ArgumentSpan.shorter {ts rest : List Terminal} {a : Option String}
    (h : ArgumentSpan ts a rest) : rest.length < ts.length := by
  cases h with
  | value hv => exact (valueSpan_cons hv).2
  | other => simp

theorem completes_arguments : Completes (many argumentStep) (ManySpan ArgumentSpan) := by
  refine .many completes_argumentStep recognizes_argumentStep.isSound ?_ extends_argument
    ArgumentSpan.shorter
  rintro ts a rest (_ | ⟨-, h⟩)
  exact h

/-- A creation is completed by its parentheses. -/
theorem completes_creation :
    Completes creation fun ts i rest =>
      StartsWith (.keyword .create) ts → InstructionSpan ts i rest := by
  have hclose : ∀ g, Completes
      (many argumentStep >>= fun found => skip >>= fun _ => pure (.create g (found.filterMap id)))
      (fun ts i rest => ∃ found ms,
        ManySpan ArgumentSpan ts found (.mark (.delimiter .rightParen) :: ms) ∧
          i = Instruction.create g (found.filterMap id) ∧ rest = ms) := fun g =>
    completes_arguments.upTo (by simp) recognizes_arguments.isSound
      (extends_argument.many fun h => Nat.le_of_lt h.shorter) (fun _ => .pure _)
      fun _ => ⟨[], by simp, _, fun _ _ => ⟨rfl, rfl⟩⟩
  have hspell : ∀ g, Spells fun ts i rest => ∃ found ms,
      ManySpan ArgumentSpan ts found (.mark (.delimiter .rightParen) :: ms) ∧
        i = Instruction.create g (found.filterMap id) ∧ rest = ms := fun g =>
    ⟨[.mark (.delimiter .rightParen)], by simp, _, fun tail _ => ⟨[], tail, .nil, rfl, rfl⟩⟩
  refine (((Completes.expectSymbol _ (by simp) _).between (Recognizes.expectSymbol _ _).isSound
    extends_name (by simp) _ hclose hspell).skip).mono ?_
  -- the first token is passed over unread, and it is the word of a creation
  rintro ts i rest ⟨g, ms, hg, found, us, hfound, rfl, rfl⟩ ⟨more, rfl⟩
  generalize hmore : (Terminal.mark (.keyword .create) :: more).tail = ws at hg
  cases hg
  obtain rfl : more = _ := hmore
  exact .create (argumentsSpan_iff.mpr ⟨found, hfound, rfl⟩)

/-! ## Lists of names and collections -/

theorem completes_loopNames :
    Completes (many loopNameStep) (ManySpan (CommaSpan NameSpan)) := by
  have hname := (Completes.expectSymbol .missingName (by simp)
    "Expected a value name in foreach.").skipComma
  have hstep : CompletesItem loopNameStep (CommaSpan NameSpan) := by
    have hitem := Completes.item (k := .keyword .inWord) "foreach values" hname
    simpa only [loopNameStep, bind_assoc] using hitem
  refine .many hstep recognizes_loopNameStep.isSound ?_ extends_name.comma
    (CommaSpan.shorter NameSpan.shorter)
  rintro ts a rest (_ | ⟨-, h⟩)
  exact h

theorem completes_collections :
    Completes (many collectionStep) (ManySpan (CommaSpan ExprSpan)) := by
  have hstep : CompletesItem collectionStep (CommaSpan ExprSpan) := by
    have hitem := Completes.item (k := .delimiter .leftBrace) "foreach collections"
      completes_expression.skipComma
    simpa only [collectionStep, bind_assoc] using hitem
  refine .many hstep recognizes_collectionStep.isSound ?_ extends_expr.comma
    (CommaSpan.shorter ExprSpan.shorter)
  rintro ts a rest (_ | ⟨-, h⟩)
  exact h

/-! ## Instructions with bodies -/

theorem spells_body : Spells (BodySpan.after [.mark (.delimiter .leftBrace)]) :=
  ⟨[.mark (.delimiter .rightBrace)], by simp, [], fun _ _ => .braces .nil⟩

theorem spells_body_map (f : List Instruction → Instruction) :
    Spells (Span.after [.mark (.delimiter .leftBrace)]
      fun ts i rest => ∃ b, BodySpan ts b rest ∧ i = f b) :=
  spells_body.map f

section

variable {inner : String → Parse (List Instruction)}

theorem completes_branch (h : ∀ what, Completes (inner what) BodySpan) :
    Completes (branch inner) fun ts i rest =>
      StartsWith (.keyword .ifWord) ts → InstructionSpan ts i rest := by
  refine ((completes_expression.bind recognizes_expression.isSound extends_expr
    (fun c => (h "if body").map (Instruction.branch c)) (by simp)
    fun c => spells_body_map (Instruction.branch c)).skip).mono ?_
  rintro ts i rest ⟨c, ms, hc, b, hb, rfl⟩ ⟨us, rfl⟩
  exact .branch hc hb

theorem completes_loop (h : ∀ what, Completes (inner what) BodySpan) :
    Completes (loop inner) fun ts i rest =>
      StartsWith (.keyword .forWord) ts → InstructionSpan ts i rest := by
  have hstep := fun s c => completes_progression.bind recognizes_progression.isSound
    extends_progression (fun p => (h "for body").map (Instruction.loop s c p)) (by simp)
    fun p => spells_body_map (Instruction.loop s c p)
  have hspellStep := fun s c => spells_progression.bind (k := .delimiter .leftBrace) (by simp)
    fun p => spells_body_map (Instruction.loop s c p)
  have hcondition := fun s => completes_expression.between recognizes_expression.isSound
    extends_expr (k := .delimiter .semicolon) (by simp) (fun _ => "after for condition") (hstep s)
    (hspellStep s)
  have hspellCondition := fun s => spells_expression.between (k := .delimiter .semicolon) (by simp)
    (hspellStep s)
  refine ((completes_declaration.between recognizes_declaration.isSound extends_declaration
    (by simp) (fun _ => "after for declaration") hcondition hspellCondition).skip).mono ?_
  rintro ts i rest ⟨s, ms, hs, c, ks, hc, p, js, hp, b, hb, rfl⟩ ⟨us, rfl⟩
  exact .loop hs hc hp hb

theorem completes_foreachClauses (h : ∀ what, Completes (inner what) BodySpan) :
    Completes (foreachClauses inner) (ClausesSpan BodySpan) := by
  have hcollections := fun ns => completes_collections.bind
    (recognizes_collections.isSound.mono And.left) extends_collections
    (fun cs => (h "foreach body").map (Instruction.foreach ns cs)) (by simp)
    fun cs => spells_body_map (Instruction.foreach ns cs)
  refine completes_loopNames.upTo (by simp) recognizes_loopNames.isSound extends_names
    hcollections fun ns => ?_
  -- behind `in` there may be no collections, and an empty body
  refine ⟨[.mark (.delimiter .leftBrace), .mark (.delimiter .rightBrace)], by simp,
    .foreach ns [] [], fun tail _ => ?_⟩
  exact ⟨[], _, .nil, [], .braces .nil, rfl⟩

theorem completes_foreach (h : ∀ what, Completes (inner what) BodySpan) :
    Completes (foreach inner) fun ts i rest =>
      StartsWith (.keyword .foreach) ts → InstructionSpan ts i rest := by
  have hat : ∀ t : Token, Completes
      (if t.kind = .symbol then foreachClauses inner
        else throw (.about .unexpectedToken s!"Unexpected token in foreach: {t.value}." t))
      fun ts i rest => (∃ n, t.terminal = .symbol n) ∧ ClausesSpan BodySpan ts i rest := by
    intro t
    by_cases ht : t.kind = .symbol
    · rw [if_pos ht]
      exact (completes_foreachClauses h).mono
        fun _ _ _ hc => ⟨⟨_, Token.terminal_of_symbol ht⟩, hc⟩
    · rw [if_neg ht]
      exact .throw (by simp [SyntaxError.about])
  rw [foreach_eq]
  refine (Completes.requireMore
    (S := fun w ts i rest => (∃ n, w = .symbol n) ∧ ClausesSpan BodySpan ts i rest)
    "foreach" hat ?_).skip.mono ?_
  · refine ⟨[.symbol "x", .mark (.keyword .inWord), .mark (.delimiter .leftBrace),
      .mark (.delimiter .rightBrace)], by simp, .foreach ["x"] [] [], fun tail _ => ?_⟩
    exact ⟨_, _, rfl, ⟨"x", rfl⟩, ["x"], _, .cons (.plain .symbol) .nil, [], _, .nil, [],
      .braces .nil, rfl⟩
  · rintro ts i rest ⟨w, us, hts, ⟨n, rfl⟩, ns, ms, hns, cs, ks, hcs, b, hb, rfl⟩ ⟨more, rfl⟩
    obtain rfl : more = .symbol n :: us := hts
    obtain ⟨ns', rfl, hns'⟩ := names_of_symbol hns
    exact .foreach hns' hcs hb

/-- **An instruction** is completed if its bodies are. -/
theorem completes_instructionWith (h : ∀ what, Completes (inner what) BodySpan) :
    Completes (instructionWith inner) InstructionSpan := by
  refine (Completes.requireMore
    (S := fun w ts i rest => (∃ us, ts = w :: us) → InstructionSpan ts i rest) "instruction"
    (fun t => ?_) ?_).mono ?_
  · have hfail : Completes
        (throw (.about .expectedInstruction s!"Expected an instruction, got '{t.value}'." t))
        fun ts i rest => (∃ us, ts = t.terminal :: us) → InstructionSpan ts i rest :=
      .throw (by simp [SyntaxError.about])
    cases hk : t.kind with
    | keyword k =>
      have ht := Token.terminal_of_ne (t := t) (by simp [hk])
      rw [hk] at ht
      cases k with
      | create =>
        rw [ht]
        exact completes_creation
      | ifWord =>
        rw [ht]
        exact completes_branch h
      | foreach =>
        rw [ht]
        exact completes_foreach h
      | forWord =>
        rw [ht]
        exact completes_loop h
      | letWord =>
        rw [ht]
        refine (completes_declaration.map Instruction.declare).mono ?_
        rintro ts i rest ⟨d, hd, rfl⟩ ⟨us, rfl⟩
        cases hd with
        | plain hd => cases hd
        | letWord hd => exact .declare hd
      | _ => exact hfail
    | _ => exact hfail
  · obtain ⟨us, hus, d, hd⟩ := spells_assignment
    refine ⟨.mark (.keyword .letWord) :: us, by simp [hus], .declare d, fun tail ht => ?_⟩
    exact ⟨_, _, rfl, fun _ => .declare (hd tail ht)⟩
  · rintro ts i rest ⟨w, us, rfl, hspan⟩
    exact hspan ⟨us, rfl⟩

/-- What a body holds is completed by its last instruction. -/
theorem completes_instructions (what : String) {room : Nat}
    (h : ∀ what, Completes (inner what) BodySpan)
    (hr : ∀ what, Recognizes (inner what) (RoomSpan room) Anything) :
    Completes (many (bodyStep inner what)) (ManySpan InstructionSpan) := by
  have hstep : CompletesItem (bodyStep inner what) InstructionSpan :=
    (completes_instructionWith h).item what
  refine .many hstep (recognizes_bodyStep what hr).isSound ?_ extends_instruction
    InstructionSpan.shorter
  rintro ts i rest (_ | ⟨-, hi, -⟩)
  exact hi

end

/-- **A body** is completed by its brace, even if there is no room for it. -/
theorem completes_bodyWithin (limit : Int) (room : Nat) (what : String) :
    Completes (bodyWithin limit room what) BodySpan := by
  have hclose : Spells fun ts b rest => BodySpan (.mark (.delimiter .leftBrace) :: ts) b rest :=
    spells_body
  induction room generalizing what with
  | zero =>
    refine (Completes.expect (k := .delimiter .leftBrace) (by simp) s!"to open {what}"
      (S := fun ts b rest => BodySpan (.mark (.delimiter .leftBrace) :: ts) b rest)
      (fun brace => ?_) hclose).mono ?_
    · exact Completes.deeper (.throw (by simp [tooDeep, SyntaxError.about]))
    · rintro ts b rest ⟨ms, rfl, hb⟩
      exact hb
  | succ room ih =>
    have hinside := completes_instructions what ih (recognizes_bodyWithin limit room)
    have hsound := (recognizes_instructions what (recognizes_bodyWithin limit room)).deeper.isSound
    have hbody := hinside.deeper.upTo (k := .delimiter .rightBrace) (by simp)
      (hsound.mono fun h => ⟨(manySpan_and.mp h.1).1, h.2⟩)
      (extends_instruction.many fun h => Nat.le_of_lt h.shorter) (fun is => .pure is)
      (T := fun is ts b rest => b = is ∧ rest = ts)
      fun is => ⟨[], by simp, is, fun _ _ => ⟨rfl, rfl⟩⟩
    refine (Completes.expect (k := .delimiter .leftBrace) (by simp) s!"to open {what}"
      (fun _ => hbody) ?_).mono ?_
    · refine ⟨[.mark (.delimiter .rightBrace)], by simp, [], fun tail _ => ?_⟩
      exact ⟨[], tail, .nil, rfl, rfl⟩
    · rintro ts b rest ⟨ms, rfl, is, us, his, rfl, rfl⟩
      exact .braces his

end Parse

end BlockLang
