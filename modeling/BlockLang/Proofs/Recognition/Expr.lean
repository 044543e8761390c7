import BlockLang.Proofs.Grammar.Laws
import BlockLang.Proofs.Recognition.Basic

/-!
# Recognition of expressions

A value takes every point and member it can, so it asks nothing of what follows. A chain of operands
stops at the first token that is none of its operators, so it asks that no such operator follows;
an expression, being a chain of chains, asks it of all operators.
-/

namespace BlockLang

namespace Parse

/-! ## Values -/

section

variable {rd ts : List Token} {t u m : Token} {d : Nat}

theorem valueText_of_ne (ht : t.kind ≠ .endOfInput) (h : t.kind ≠ .symbol) :
    valueText ⟨rd, t :: ts, d⟩ =
      .error (.about .unexpectedToken s!"Expected a value, got '{t.value}'." t)
        ⟨rd, t :: ts, d⟩ := by
  simp only [valueText, peek_bind_apply, Cursor.peek_cons ht, if_neg h, throw_apply]

/-- A symbol without a point behind it. -/
theorem valueText_name (ht : t.kind = .symbol) (hts : EndFree ts)
    (h : ∀ u ∈ ts.head?, u.kind ≠ .delimiter .dot) :
    valueText ⟨rd, t :: ts, d⟩ = .ok t.value ⟨t :: rd, ts, d⟩ := by
  have he : t.kind ≠ .endOfInput := by simp [ht]
  simp only [valueText, peek_bind_apply, Cursor.peek_cons he, if_pos ht, skip_bind_apply,
    Cursor.advance_cons he, sees_bind_apply]
  cases ts with
  | nil => rfl
  | cons u ts => simp [Cursor.sees_cons (endFree_cons.mp hts).1, h u rfl]

/-- A symbol and a point, without a symbol behind it. -/
theorem valueText_pointed (ht : t.kind = .symbol) (hu : u.kind = .delimiter .dot)
    (hts : EndFree ts) (h : ∀ m ∈ ts.head?, m.kind ≠ .symbol) :
    valueText ⟨rd, t :: u :: ts, d⟩ = .ok (t.value ++ ".") ⟨u :: t :: rd, ts, d⟩ := by
  have he : t.kind ≠ .endOfInput := by simp [ht]
  have hu' : u.kind ≠ .endOfInput := by simp [hu]
  simp only [valueText, peek_bind_apply, Cursor.peek_cons he, if_pos ht, skip_bind_apply,
    Cursor.advance_cons he, sees_bind_apply, Cursor.sees_cons hu', decide_eq_true_eq, if_pos hu,
    Cursor.advance_cons hu']
  cases ts with
  | nil => rfl
  | cons m ts =>
    simp only [Cursor.peek_cons (endFree_cons.mp hts).1, if_neg (h m rfl), pure_apply]

/-- Two symbols joined by a point. -/
theorem valueText_member (ht : t.kind = .symbol) (hu : u.kind = .delimiter .dot)
    (hm : m.kind = .symbol) :
    valueText ⟨rd, t :: u :: m :: ts, d⟩ =
      .ok (t.value ++ "." ++ m.value) ⟨m :: u :: t :: rd, ts, d⟩ := by
  have he : t.kind ≠ .endOfInput := by simp [ht]
  have hu' : u.kind ≠ .endOfInput := by simp [hu]
  have hm' : m.kind ≠ .endOfInput := by simp [hm]
  simp only [valueText, peek_bind_apply, Cursor.peek_cons he, if_pos ht, skip_bind_apply,
    Cursor.advance_cons he, sees_bind_apply, Cursor.sees_cons hu', decide_eq_true_eq, if_pos hu,
    Cursor.advance_cons hu', Cursor.peek_cons hm', if_pos hm, Cursor.advance_cons hm', pure_apply]

end

/-- **Every symbol starts a value**, which takes every point and every member it can. -/
theorem valueText_spans (rd : List Token) (d : Nat) {ts : List Token} {t : Token}
    (ht : t.kind = .symbol) (hts : EndFree ts) :
    ∃ s c, valueText ⟨rd, t :: ts, d⟩ = .ok s c ∧ c.rest <:+ ts ∧
      ValueSpan (terminals (t :: ts)) s (terminals c.rest) := by
  rw [terminals_cons, Token.terminal_of_symbol ht]
  -- whether a point comes next, and whether a symbol comes behind it, settles the value
  cases ts with
  | nil => exact ⟨_, _, valueText_name ht hts (by simp), List.suffix_rfl, .name (by simp)⟩
  | cons u ts =>
    obtain ⟨hu, hts'⟩ := endFree_cons.mp hts
    by_cases hdot : u.kind = .delimiter .dot
    · rw [terminals_cons, (Token.terminal_eq_mark (by simp)).mpr hdot]
      cases ts with
      | nil =>
        exact ⟨_, _, valueText_pointed ht hdot hts' (by simp), List.suffix_cons _ _,
          .pointed (by simp)⟩
      | cons m ts =>
        by_cases hm : m.kind = .symbol
        · refine ⟨_, _, valueText_member ht hdot hm, ⟨[u, m], rfl⟩, ?_⟩
          rw [terminals_cons, Token.terminal_of_symbol hm]
          exact .member
        · have hnext : ∀ v ∈ (m :: ts).head?, v.kind ≠ .symbol := by simpa using hm
          refine ⟨_, _, valueText_pointed ht hdot hts' hnext, List.suffix_cons _ _, ?_⟩
          rw [terminals_cons, Token.terminal_of_ne hm]
          exact .pointed (by simp)
    · refine ⟨_, _, valueText_name ht hts (by simpa using hdot), List.suffix_rfl, .name ?_⟩
      rw [terminals_cons, startsWith_cons, Token.terminal_eq_mark (by simp)]
      exact hdot

theorem recognizes_valueText : Recognizes valueText ValueSpan Anything where
  sound := by
    rintro ⟨rd, ts, d⟩ c' s he h
    cases ts with
    | nil => cases h
    | cons t ts =>
      obtain ⟨ht, hts⟩ := endFree_cons.mp he
      by_cases hsym : t.kind = .symbol
      · obtain ⟨s', c, hrun, hsuf, hspan⟩ := valueText_spans _ _ hsym hts
        rw [hrun] at h
        cases h
        exact ⟨hsuf.trans (List.suffix_cons _ _), hspan⟩
      · rw [valueText_of_ne ht hsym] at h
        cases h
  complete := by
    rintro ⟨rd, ts, d⟩ s rest he h -
    obtain ⟨n, more, hcons⟩ := (valueSpan_cons h).1
    cases ts with
    | nil => simp at hcons
    | cons t ts =>
      rw [terminals_cons] at hcons
      injection hcons with ht _
      obtain ⟨hsym, -⟩ := Token.terminal_eq_symbol.mp ht
      -- the parse returns a value that spans the same terminals, and there is only one
      obtain ⟨s', c, hrun, -, hspan⟩ := valueText_spans _ _ hsym (endFree_cons.mp he).2
      obtain ⟨rfl, rfl⟩ := valueSpan_unique h hspan
      exact ⟨c, hrun, rfl⟩

/-- A value as an expression. -/
theorem recognizes_value : Recognizes value AtomSpan Anything :=
  (recognizes_valueText.map Expr.value).congr fun ts e rest => by
    constructor
    · rintro ⟨s, h, rfl⟩
      exact .value h
    · rintro ⟨h⟩
      exact ⟨_, h, rfl⟩

/-! ## Operators -/

section

variable {admits : Operator → Bool} {operand : Parse Expr} {X : Span Expr}
  {F : List Terminal → Prop}

theorem operatorStep_of_none {c : Cursor} (he : EndFree c.rest)
    (h : NoOperator admits (terminals c.rest)) : operatorStep admits operand c = .ok none c := by
  obtain ⟨rd, ts, d⟩ := c
  cases ts with
  | nil => rfl
  | cons t ts =>
    have ht := (endFree_cons.mp he).1
    rw [terminals_cons, noOperator_cons] at h
    simp only [operatorStep, bind, EStateM.bind, get, getThe, MonadStateOf.get, EStateM.get,
      Cursor.peekKind_cons ht]
    cases hk : t.kind with
    | operator op =>
      have := h op ((Token.terminal_eq_mark (by simp)).mpr hk)
      simp [this, pure, EStateM.pure]
    | _ => rfl

theorem operatorStep_of_some {rd ts : List Token} {t : Token} {d : Nat} {op : Operator}
    (h : t.kind = .operator op) (ha : admits op = true) :
    operatorStep admits operand ⟨rd, t :: ts, d⟩ =
      (operand >>= fun e => pure (some (op, e)) : Parse _) ⟨t :: rd, ts, d⟩ := by
  have ht : t.kind ≠ .endOfInput := by simp [h]
  simp only [operatorStep, bind, EStateM.bind, get, getThe, MonadStateOf.get, EStateM.get,
    Cursor.peekKind_cons ht, h, if_pos ha, skip_apply, Cursor.advance_cons ht]

theorem recognizes_operatorStep (h : Recognizes operand X F) :
    Recognizes (operatorStep admits operand) (UntilSpan (NoOperator admits) (OperatorSpan admits X))
      F where
  sound := by
    intro c c' o he hp
    by_cases hno : NoOperator admits (terminals c.rest)
    · rw [operatorStep_of_none he hno] at hp
      cases hp
      exact ⟨List.suffix_rfl, .stop hno⟩
    · obtain ⟨rd, ts, d⟩ := c
      cases ts with
      | nil => simp at hno
      | cons t ts =>
        have hop : ∃ op, t.terminal = .mark (.operator op) ∧ admits op = true := by
          simpa using hno
        obtain ⟨op, ht, ha⟩ := hop
        have hk := (Token.terminal_eq_mark (by simp)).mp ht
        rw [operatorStep_of_some hk ha] at hp
        obtain ⟨e, c₁, h₁, h₂⟩ := bind_eq_ok.mp hp
        cases h₂
        obtain ⟨hsuf, hX⟩ := h.sound (endFree_cons.mp he).2 h₁
        refine ⟨hsuf.trans (List.suffix_cons _ _), .item hno ?_⟩
        rw [terminals_cons, ht]
        exact .operator ha hX
  complete := by
    rintro c o rest he hS hF
    generalize hts : terminals c.rest = ts at hS
    cases hS with
    | stop hno =>
      subst hts
      exact ⟨c, operatorStep_of_none he hno, rfl⟩
    | item hno hX =>
      cases hX with
      | operator ha hX =>
        obtain ⟨rd, us, d⟩ := c
        cases us with
        | nil => simp at hts
        | cons t us =>
          rw [terminals_cons] at hts
          injection hts with ht hus
          subst hus
          have hk := (Token.terminal_eq_mark (by simp)).mp ht
          obtain ⟨c₁, h₁, hr⟩ := h.complete (c := ⟨t :: rd, us, d⟩) (endFree_cons.mp he).2 hX hF
          exact ⟨c₁, by rw [operatorStep_of_some hk ha, bind_of_ok h₁, pure_apply], hr⟩

end

/-! ## Chains -/

section

variable {admits : Operator → Bool} {X : Span Expr}

/-- **Operands joined from the left** are recognised as a chain, if nothing that an operand asks of
its rest keeps an operator of the chain from following. -/
theorem recognizes_chain {first operand : Parse Expr} {F : List Terminal → Prop}
    (hfirst : Recognizes first X F) (hoperand : Recognizes operand X F)
    (hX : ∀ {ts e rest}, X ts e rest → rest.length < ts.length)
    (hF : ∀ {op rest}, admits op = true → F (.mark (.operator op) :: rest)) :
    Recognizes (first >>= fun lhs => many (operatorStep admits operand) >>= fun tail =>
        pure (joinLeft lhs tail))
      (ChainSpan admits X) (fun rest => NoOperator admits rest ∧ F rest) := by
  have hmany : Recognizes (many (operatorStep admits operand))
      (fun ts as rest => ManySpan (OperatorSpan admits X) ts as rest ∧ NoOperator admits rest)
      F := by
    refine (recognizes_operatorStep hoperand).manyUntil ?_ fun _ h => h
    rintro ts a rest (⟨ha, h⟩)
    refine ⟨by simpa using ha, hF ha, ?_⟩
    have := hX h
    simp only [List.length_cons]
    omega
  refine (hfirst.bind (fun lhs => hmany.asking.map (joinLeft lhs)) ?_).congr
    fun ts e rest => chainSpan_iff.symm
  -- behind the first operand comes an operator of the chain, or what comes behind the chain
  rintro lhs e ms rest ⟨tail, ht, -⟩ ⟨-, hrest⟩
  cases ht with
  | nil => exact hrest
  | cons hstep _ =>
    cases hstep with
    | operator ha _ => exact hF ha

end

/-- A term asks that no multiplicative operator follows. -/
theorem recognizes_term : Recognizes (term none) TermSpan (NoOperator (!·.isAdditive)) :=
  (recognizes_chain recognizes_value recognizes_value AtomSpan.shorter fun _ => trivial).follow
    fun _ h => ⟨h, trivial⟩

/-- An expression asks that no operator follows. -/
theorem recognizes_expression : Recognizes expression ExprSpan NoOperators := by
  refine (recognizes_chain recognizes_term recognizes_term TermSpan.shorter ?_).follow ?_
  · rintro op rest hop
    simp [hop]
  · intro rest h
    exact ⟨fun op more hr => absurd hr (h op more), fun op more hr => absurd hr (h op more)⟩

/-- An expression is its first value and whatever is joined to it. -/
theorem expression_eq :
    expression = valueText >>= fun s => expressionFrom (some (.value s)) := by
  simp only [expression, expressionFrom, term, value, bind_assoc, pure_bind]

end Parse

end BlockLang
