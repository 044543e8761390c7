import BlockLang.Proofs.Grammar.Steps

/-!
# Facts about spans

What spans start with, that they use up what they span, and that a chain is its first operand with
a list of operators and operands behind it.
-/

namespace BlockLang

/-! ## What comes next -/

/-- No operator that `admits` accepts comes next. -/
def NoOperator (admits : Operator → Bool) (ts : List Terminal) : Prop :=
  ∀ op rest, ts = .mark (.operator op) :: rest → admits op = false

@[simp] theorem noOperator_nil {admits : Operator → Bool} : NoOperator admits [] := by
  intro op rest h
  cases h

@[simp] theorem noOperator_cons {admits : Operator → Bool} {t : Terminal} {ts : List Terminal} :
    NoOperator admits (t :: ts) ↔ ∀ op, t = .mark (.operator op) → admits op = false := by
  simp [NoOperator]

/-- No operator comes next. -/
def NoOperators (ts : List Terminal) : Prop := ∀ op rest, ts ≠ .mark (.operator op) :: rest

@[simp] theorem noOperators_nil : NoOperators [] := by
  intro op rest h
  cases h

@[simp] theorem noOperators_cons {t : Terminal} {ts : List Terminal} :
    NoOperators (t :: ts) ↔ ∀ op, t ≠ .mark (.operator op) := by
  simp [NoOperators]

/-- Nothing here goes on with a value. -/
def EndsValue (rest : List Terminal) : Prop :=
  ¬ StartsWith (.delimiter .dot) rest ∧ ∀ m more, rest ≠ .symbol m :: more

@[simp] theorem endsValue_nil : EndsValue [] := by
  simp [EndsValue]

@[simp] theorem endsValue_mark {k : Kind} {rest : List Terminal} :
    EndsValue (.mark k :: rest) ↔ k ≠ .delimiter .dot := by
  simp [EndsValue]

/-! ## Terminals of tokens -/

/-- Are the terminals those of tokens without an end mark? -/
def Proper (ws : List Terminal) : Prop := ∀ w ∈ ws, w ≠ .mark .symbol ∧ w ≠ .mark .endOfInput

@[simp] theorem proper_nil : Proper [] := fun _ h => absurd h List.not_mem_nil

@[simp] theorem proper_cons {w : Terminal} {ws : List Terminal} :
    Proper (w :: ws) ↔ (w ≠ .mark .symbol ∧ w ≠ .mark .endOfInput) ∧ Proper ws :=
  List.forall_mem_cons

@[simp] theorem proper_append {ws us : List Terminal} :
    Proper (ws ++ us) ↔ Proper ws ∧ Proper us :=
  List.forall_mem_append

theorem EndFree.proper {ts : List Token} (h : EndFree ts) : Proper (terminals ts) := by
  intro w hw
  obtain ⟨t, ht, rfl⟩ := List.mem_map.mp hw
  have hend := h t ht
  by_cases hsym : t.kind = .symbol
  · simp [Token.terminal_of_symbol hsym]
  · simp [Token.terminal_of_ne hsym, hsym, hend]

theorem Proper.exists_tokens {ws : List Terminal} (h : Proper ws) :
    ∃ ts, EndFree ts ∧ terminals ts = ws := by
  induction ws with
  | nil => exact ⟨[], by simp⟩
  | cons w ws ih =>
    rw [proper_cons] at h
    obtain ⟨ts, he, hts⟩ := ih h.2
    cases w with
    | symbol s => exact ⟨⟨.symbol, s, 0, 0⟩ :: ts, by simp [he], by simp [Token.terminal, hts]⟩
    | mark k =>
      have hk : k ≠ .symbol ∧ k ≠ .endOfInput := by simpa using h.1
      exact ⟨⟨k, "", 0, 0⟩ :: ts, by simp [he, hk.2], by simp [Token.terminal, hk.1, hts]⟩

/-! ## Values -/

/-- A value starts with a symbol and uses it up. -/
theorem valueSpan_cons {ts rest : List Terminal} {s : String} (h : ValueSpan ts s rest) :
    (∃ n more, ts = .symbol n :: more) ∧ rest.length < ts.length := by
  cases h with
  | name => exact ⟨⟨_, _, rfl⟩, by simp⟩
  | pointed => exact ⟨⟨_, _, rfl⟩, by simp only [List.length_cons]; omega⟩
  | member => exact ⟨⟨_, _, rfl⟩, by simp only [List.length_cons]; omega⟩

/-- A list of terminals starts with one value at most. -/
theorem valueSpan_unique {ts rest more : List Terminal} {s s' : String}
    (h : ValueSpan ts s rest) (h' : ValueSpan ts s' more) : s = s' ∧ rest = more := by
  cases h <;> cases h' <;> simp_all

/-- A text without a point is a symbol with no point behind it. -/
theorem valueSpan_of_no_point {ts rest : List Terminal} {s : String} (h : ValueSpan ts s rest)
    (hs : '.' ∉ s.toList) : ts = .symbol s :: rest := by
  cases h with
  | name => rfl
  | pointed => simp at hs
  | member => simp at hs

/-! ## Chains -/

section

variable {admits : Operator → Bool} {X : Span Expr}

/-- `op X` -/
inductive OperatorSpan (admits : Operator → Bool) (X : Span Expr) : Span (Operator × Expr)
  | operator {ts rest op e} : admits op = true → X ts e rest →
      OperatorSpan admits X (.mark (.operator op) :: ts) (op, e) rest

/-- **A chain** is its first operand, joined to as many further ones as there are. -/
theorem chainSpan_iff {ts rest : List Terminal} {e : Expr} :
    ChainSpan admits X ts e rest ↔
      ∃ lhs ms, X ts lhs ms ∧
        ∃ tail, ManySpan (OperatorSpan admits X) ms tail rest ∧ e = Parse.joinLeft lhs tail := by
  constructor
  · intro h
    induction h with
    | one h => exact ⟨_, _, h, [], .nil, rfl⟩
    | more _ ha hX ih =>
      obtain ⟨lhs, ms, hfirst, tail, htail, rfl⟩ := ih
      refine ⟨lhs, ms, hfirst, tail ++ [(_, _)], htail.snoc (.operator ha hX), ?_⟩
      simp only [Parse.joinLeft, List.foldl_append, List.foldl_cons, List.foldl_nil]
  · rintro ⟨lhs, ms, hfirst, tail, htail, rfl⟩
    -- what is joined so far is a chain, and stays one with every further operand
    have hlhs : ChainSpan admits X ts lhs ms := .one hfirst
    clear hfirst
    induction htail generalizing lhs with
    | nil => exact hlhs
    | cons hstep _ ih =>
      cases hstep with
      | operator ha hX => exact ih _ (.more hlhs ha hX)

/-- A chain uses up whatever its operands use up. -/
theorem ChainSpan.shorter (hX : ∀ {ts e rest}, X ts e rest → rest.length < ts.length)
    {ts rest : List Terminal} {e : Expr} (h : ChainSpan admits X ts e rest) :
    rest.length < ts.length := by
  induction h with
  | one h => exact hX h
  | more _ _ h ih =>
    have := hX h
    simp only [List.length_cons] at ih
    omega

theorem AtomSpan.shorter {ts rest : List Terminal} {e : Expr} (h : AtomSpan ts e rest) :
    rest.length < ts.length := by
  cases h with
  | value h => exact (valueSpan_cons h).2

theorem TermSpan.shorter {ts rest : List Terminal} {e : Expr} (h : TermSpan ts e rest) :
    rest.length < ts.length :=
  ChainSpan.shorter AtomSpan.shorter h

theorem ExprSpan.shorter {ts rest : List Terminal} {e : Expr} (h : ExprSpan ts e rest) :
    rest.length < ts.length :=
  ChainSpan.shorter TermSpan.shorter h

/-- Behind its first value comes an operator of the chain, or what comes behind the chain. -/
theorem ChainSpan.afterFirst {ts rest : List Terminal} {e : Expr}
    (h : ChainSpan admits X ts e rest) :
    ∃ lhs ms, X ts lhs ms ∧ (ms = rest ∨ ∃ op more, ms = .mark (.operator op) :: more) := by
  obtain ⟨lhs, ms, hX, tail, ht, -⟩ := chainSpan_iff.mp h
  refine ⟨lhs, ms, hX, ?_⟩
  cases ht with
  | nil => exact .inl rfl
  | cons hstep _ =>
    cases hstep with
    | operator => exact .inr ⟨_, _, rfl⟩

end

/-- An expression starts with a value, and an operator follows it or what follows the
expression. -/
theorem ExprSpan.afterFirst {ts rest : List Terminal} {e : Expr} (h : ExprSpan ts e rest) :
    ∃ s ms, ValueSpan ts s ms ∧ (ms = rest ∨ ∃ op more, ms = .mark (.operator op) :: more) := by
  obtain ⟨lhs, ms, hterm, hms⟩ := ChainSpan.afterFirst h
  obtain ⟨e', us, ⟨hv⟩, hus⟩ := ChainSpan.afterFirst hterm
  refine ⟨_, us, hv, ?_⟩
  rcases hus with rfl | hop
  · exact hms
  · exact .inr hop

/-- An expression starts with a symbol. -/
theorem ExprSpan.symbol {ts rest : List Terminal} {e : Expr} (h : ExprSpan ts e rest) :
    ∃ n more, ts = .symbol n :: more := by
  obtain ⟨s, ms, hv, -⟩ := ExprSpan.afterFirst h
  exact (valueSpan_cons hv).1

/-- An assignment starts with a symbol. -/
theorem AssignmentSpan.symbol {ts rest : List Terminal} {d : Declaration}
    (h : AssignmentSpan ts d rest) : ∃ n more, ts = .symbol n :: more := by
  cases h
  exact ⟨_, _, rfl⟩

/-! ## Names -/

/-- A symbol is the first of the names that start with it. -/
theorem names_of_symbol {n : String} {us ms : List Terminal} {ns : List String}
    (h : ManySpan (CommaSpan NameSpan) (.symbol n :: us) ns (.mark (.keyword .inWord) :: ms)) :
    ∃ ns', ns = n :: ns' ∧
      ManySpan (CommaSpan NameSpan) us ns' (.mark (.keyword .inWord) :: ms) := by
  cases h with
  | cons hn hns =>
    cases hn with
    | plain hn =>
      cases hn
      exact ⟨_, rfl, hns⟩

/-! ## Every instruction uses up a token -/

/-- A repetition uses up whatever its items use up. -/
theorem ManySpan.length_le {α : Type} {X : Span α} {ts rest : List Terminal} {as : List α}
    (h : ManySpan X ts as rest)
    (hX : ∀ {ts a rest}, a ∈ as → X ts a rest → rest.length ≤ ts.length) :
    rest.length ≤ ts.length := by
  induction h with
  | nil => exact Nat.le_refl _
  | cons ha _ ih =>
    have hfirst := hX List.mem_cons_self ha
    have hothers := ih fun hmem => hX (List.mem_cons_of_mem _ hmem)
    omega

theorem CommaSpan.shorter {α : Type} {X : Span α}
    (hX : ∀ {ts a rest}, X ts a rest → rest.length < ts.length) {ts rest : List Terminal} {a : α}
    (h : CommaSpan X ts a rest) : rest.length < ts.length := by
  cases h with
  | plain h => exact hX h
  | comma h =>
    have := hX h
    simp only [List.length_cons]
    omega

theorem NameSpan.shorter {ts rest : List Terminal} {s : String} (h : NameSpan ts s rest) :
    rest.length < ts.length := by
  cases h
  simp

theorem AssignmentSpan.shorter {ts rest : List Terminal} {d : Declaration}
    (h : AssignmentSpan ts d rest) : rest.length < ts.length := by
  cases h with
  | equal h =>
    have := ExprSpan.shorter h
    simp only [List.length_cons]
    omega

theorem DeclarationSpan.shorter {ts rest : List Terminal} {d : Declaration}
    (h : DeclarationSpan ts d rest) : rest.length < ts.length := by
  cases h with
  | plain h => exact h.shorter
  | letWord h =>
    have := h.shorter
    simp only [List.length_cons]
    omega

theorem ProgressionSpan.shorter {ts rest : List Terminal} {p : Progression}
    (h : ProgressionSpan ts p rest) : rest.length < ts.length := by
  cases h with
  | letWord h => exact (DeclarationSpan.letWord h).shorter
  | plain h _ => exact h.shorter
  | evaluate h => exact ExprSpan.shorter h

theorem ArgumentsSpan.length_le {ts rest : List Terminal} {as : List String}
    (h : ArgumentsSpan ts as rest) : rest.length ≤ ts.length := by
  induction h with
  | nil => exact Nat.le_refl _
  | value hv _ ih =>
    have := (valueSpan_cons hv).2
    omega
  | other _ _ ih =>
    simp only [List.length_cons]
    omega

/-- An instruction uses up a token if the bodies inside it do. -/
theorem InstructionSpan.shorter_of {n : Nat}
    (hbody : ∀ {ts b rest}, Instruction.bodyDepth b ≤ n → BodySpan ts b rest →
      rest.length < ts.length)
    {ts rest : List Terminal} {i : Instruction} (hn : i.depth ≤ n) (h : InstructionSpan ts i rest) :
    rest.length < ts.length := by
  -- every part leaves what the next one spans, and the word in front is one more
  cases h with
  | create ha =>
    have := ha.length_le
    simp only [List.length_cons] at this ⊢
    omega
  | declare ha =>
    have := ha.shorter
    simp only [List.length_cons]
    omega
  | branch hc hb =>
    have := ExprSpan.shorter hc
    have := hbody hn hb
    simp only [List.length_cons]
    omega
  | foreach hns hcs hb =>
    have h₁ := hns.length_le fun _ h => Nat.le_of_lt (CommaSpan.shorter NameSpan.shorter h)
    have h₂ := hcs.length_le fun _ h => Nat.le_of_lt (CommaSpan.shorter ExprSpan.shorter h)
    have h₃ := hbody hn hb
    simp only [List.length_cons] at h₁ ⊢
    omega
  | loop hs hc hp hb =>
    have h₁ := hs.shorter
    have h₂ := ExprSpan.shorter hc
    have h₃ := hp.shorter
    have h₄ := hbody hn hb
    simp only [List.length_cons] at h₁ h₂ ⊢
    omega

theorem BodySpan.shorter_of {n : Nat} {ts rest : List Terminal} {b : List Instruction}
    (hn : Instruction.bodyDepth b ≤ n) (h : BodySpan ts b rest) : rest.length < ts.length := by
  -- the induction is on the depth, since an instruction holds bodies and a body instructions
  induction n generalizing ts b rest with
  | zero =>
    have := Instruction.bodyDepth_pos b
    omega
  | succ n ih =>
    cases h with
    | braces h =>
      have hle := h.length_le fun hmem h =>
        Nat.le_of_lt (h.shorter_of ih (Instruction.bodyDepth_le_succ.mp hn _ hmem))
      simp only [List.length_cons] at hle ⊢
      omega

theorem BodySpan.shorter {ts rest : List Terminal} {b : List Instruction} (h : BodySpan ts b rest) :
    rest.length < ts.length :=
  h.shorter_of (Nat.le_refl _)

theorem InstructionSpan.shorter {ts rest : List Terminal} {i : Instruction}
    (h : InstructionSpan ts i rest) : rest.length < ts.length :=
  h.shorter_of (fun hn h => h.shorter_of hn) (Nat.le_refl _)

/-- An instruction starts with its word. -/
theorem InstructionSpan.keyword {ts rest : List Terminal} {i : Instruction}
    (h : InstructionSpan ts i rest) : ∃ k us, ts = .mark (.keyword k) :: us := by
  cases h <;> exact ⟨_, _, rfl⟩

/-- A body starts with its brace. -/
theorem BodySpan.startsWith {ts rest : List Terminal} {b : List Instruction}
    (h : BodySpan ts b rest) : StartsWith (.delimiter .leftBrace) ts := by
  cases h
  simp

theorem BodySpan.ne_nil {ts rest : List Terminal} {b : List Instruction}
    (h : BodySpan ts b rest) : ts ≠ [] := by
  cases h
  simp

theorem BodySpan.noOperators {ts rest : List Terminal} {b : List Instruction}
    (h : BodySpan ts b rest) : NoOperators ts := by
  obtain ⟨us, rfl⟩ := h.startsWith
  simp

theorem BodySpan.not_startsWith {ts rest : List Terminal} {b : List Instruction}
    (h : BodySpan ts b rest) {k : Kind} (hk : k ≠ .delimiter .leftBrace) : ¬ StartsWith k ts := by
  obtain ⟨us, rfl⟩ := h.startsWith
  simpa using hk.symm

/-! ## And so does every block -/

/-- A list of members uses up whatever its items use up. -/
theorem SepSpan.length_le {α : Type} {X : Span α}
    (hX : ∀ {ts a rest}, X ts a rest → rest.length < ts.length)
    {ts rest : List Terminal} {as : List α} (h : SepSpan X ts as rest) :
    rest.length ≤ ts.length := by
  cases h with
  | plain h => exact h.length_le fun _ h => Nat.le_of_lt (CommaSpan.shorter hX h)
  | comma h =>
    have := h.length_le fun _ h => Nat.le_of_lt (CommaSpan.shorter hX h)
    simp only [List.length_cons] at this
    omega

/-- What starts with a symbol and uses it up, as the members of blocks do. -/
structure IsMember {α : Type} (X : Span α) : Prop where
  symbol : ∀ {ts a rest}, X ts a rest → ∃ n more, ts = .symbol n :: more
  shorter : ∀ {ts a rest}, X ts a rest → rest.length < ts.length

theorem isMember_field : IsMember FieldSpan where
  symbol := by
    rintro ts f rest ⟨⟩
    exact ⟨_, _, rfl⟩
  shorter := by
    rintro ts f rest ⟨⟩
    simp only [List.length_cons]
    omega

theorem isMember_parameter : IsMember ParameterSpan where
  symbol := by
    rintro ts p rest ⟨⟩
    exact ⟨_, _, rfl⟩
  shorter := by
    rintro ts p rest ⟨⟩
    simp only [List.length_cons]
    omega

theorem isMember_fieldValue : IsMember FieldValueSpan where
  symbol := by
    rintro ts v rest ⟨⟩
    exact ⟨_, _, rfl⟩
  shorter := by
    rintro ts v rest ⟨⟩
    simp only [List.length_cons]
    omega

theorem isMember_dataInstance : IsMember DataInstanceSpan where
  symbol := by
    rintro ts d rest ⟨h⟩
    exact ⟨_, _, rfl⟩
  shorter := by
    rintro ts d rest ⟨h⟩
    have := SepSpan.length_le isMember_fieldValue.shorter h
    simp only [List.length_cons] at this ⊢
    omega

theorem ActionsSpan.length_le {ts rest : List Terminal} {as : List String}
    (h : ActionsSpan ts as rest) : rest.length ≤ ts.length := by
  induction h with
  | nil => exact Nat.le_refl _
  | symbol _ ih =>
    simp only [List.length_cons]
    omega
  | other _ _ ih =>
    simp only [List.length_cons]
    omega

/-- Behind its word a block uses up another token. -/
theorem BlockSpan.shorter_behind {w : Terminal} {ts rest : List Terminal} {b : Block}
    (h : BlockSpan (w :: ts) b rest) : rest.length < ts.length := by
  cases h with
  | data h =>
    have := SepSpan.length_le isMember_field.shorter h
    simp only [List.length_cons] at this ⊢
    omega
  | group hps hds =>
    have h₁ := SepSpan.length_le isMember_parameter.shorter hps
    have h₂ := SepSpan.length_le isMember_dataInstance.shorter hds
    simp only [List.length_cons] at h₁ h₂ ⊢
    omega
  | action hb =>
    have := hb.shorter
    simp only [List.length_cons]
    omega
  | run ha hb =>
    have h₁ := ha.length_le
    have h₂ := hb.shorter
    simp only [List.length_cons] at h₁ ⊢
    omega

theorem BlockSpan.shorter {ts rest : List Terminal} {b : Block} (h : BlockSpan ts b rest) :
    rest.length < ts.length := by
  cases ts with
  | nil => cases h
  | cons w ts => exact Nat.lt_succ_of_lt h.shorter_behind

end BlockLang
