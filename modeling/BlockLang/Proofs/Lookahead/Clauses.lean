import BlockLang.Proofs.Lookahead.Earliest
import BlockLang.Proofs.Lookahead.Terminals

/-!
# The clauses of a loop header

The last clause of a loop header may assign to a name with or without the word for it. With the
word it is a declaration; without it the name is read as a value first, and a value that holds a
point is refused as a name. That is meant for two symbols joined by a point. But the point is looked
for in the text of the value, and the text of a single symbol may hold one as well, when it is a
number or quoted. So the two readings agree on exactly the names without a point.
-/

namespace BlockLang

namespace Parse

variable {α β : Type}

/-! ## What expressions complain about -/

/-- The parse `p` fails with errors that `E` accepts. -/
def FailsWith (E : SyntaxError → Prop) (p : Parse α) : Prop :=
  ∀ c c' e, p c = .error e c' → E e

namespace FailsWith

variable {E : SyntaxError → Prop} {p q : Parse α}

theorem pure (a : α) : FailsWith E (Pure.pure a) := by
  intro c c' e h
  cases h

theorem bind {f : α → Parse β} (hp : FailsWith E p) (hf : ∀ a, FailsWith E (f a)) :
    FailsWith E (p >>= f) := by
  intro c c' e h
  rcases bind_eq_error.mp h with h | ⟨a, c₁, -, h⟩
  · exact hp c c' e h
  · exact hf a c₁ c' e h

/-- A value made of what was read. -/
theorem map (f : α → β) (hp : FailsWith E p) : FailsWith E (p >>= fun a => Pure.pure (f a)) :=
  hp.bind fun a => pure (f a)

/-- Passing over a token. -/
theorem skip (hp : FailsWith E p) : FailsWith E (Parse.skip >>= fun _ => p) :=
  fun c => hp c.advance

/-- Looking at the next token. -/
theorem peek {f : Option Token → Parse α} (h : ∀ o, FailsWith E (f o)) :
    FailsWith E (Parse.peek >>= f) :=
  fun c => h c.peek c

/-- A choice by the next token. -/
theorem sees (k : Kind) (hp : FailsWith E p) (hq : FailsWith E q) :
    FailsWith E (Parse.sees k >>= fun b => if b = true then p else q) := by
  intro c
  rw [sees_bind_apply]
  split
  · exact hp c
  · exact hq c

/-- Repetition of a productive step fails if the step does. -/
theorem many {step : Parse (Option α)} (h : FailsWith E step) (hstep : Productive step) :
    FailsWith E (Parse.many step) := by
  intro c
  fun_induction Parse.many step c with
  | case1 c e c' hs =>
    rintro _ _ ⟨⟩
    exact h c _ _ hs
  | case3 c a c' _ _ e c'' hrest ih =>
    rintro _ _ ⟨⟩
    exact ih _ _ hrest
  | case2 | case4 => rintro _ _ ⟨⟩
  | case5 c a c' hs hlt => exact absurd (hstep hs) hlt

end FailsWith

/-- An error of another kind than that a name is missing. -/
def LacksNoName (e : SyntaxError) : Prop := e.tag ≠ .missingName

theorem failsWith_valueText : FailsWith LacksNoName valueText := by
  refine .peek fun o => ?_
  cases o with
  | none =>
    intro c c' e h
    cases h
    simp [LacksNoName, Cursor.incomplete_tag]
  | some t =>
    by_cases ht : t.kind = .symbol
    · simp only [if_pos ht]
      -- behind its symbol a value does not fail
      refine .skip (.sees _ (.skip (.peek fun o => ?_)) (.pure _))
      cases o with
      | none => exact .pure _
      | some member =>
        dsimp only
        split
        · exact .skip (.pure _)
        · exact .pure _
    · simp only [if_neg ht]
      intro c c' e h
      cases h
      simp [LacksNoName, SyntaxError.about]

theorem failsWith_value : FailsWith LacksNoName value := failsWith_valueText.map Expr.value

theorem failsWith_operatorStep (admits : Operator → Bool) {operand : Parse Expr}
    (h : FailsWith LacksNoName operand) : FailsWith LacksNoName (operatorStep admits operand) := by
  have hat : ∀ o, FailsWith LacksNoName (operatorAt admits operand o) := by
    intro o
    unfold operatorAt
    split
    · split
      · exact .skip (h.map fun e => some (_, e))
      · exact .pure none
    · exact .pure none
  rw [operatorStep_eq]
  exact fun c => hat _ c

theorem failsWith_term : FailsWith LacksNoName (term none) :=
  failsWith_value.bind fun _ => ((failsWith_operatorStep _ failsWith_value).many
    (productive_operatorStep _ predictive_value recognizes_value AtomSpan.shorter)).map _

/-- **An expression never lacks a name.** -/
theorem failsWith_expression : FailsWith LacksNoName expression :=
  failsWith_term.bind fun _ => ((failsWith_operatorStep _ failsWith_term).many
    (productive_operatorStep _ (predictive_term none) recognizes_term TermSpan.shorter)).map _

/-! ## The two readings of an assignment -/

/-- **The same reading of a clause**: the same declaration and the same place behind it, or errors
of the same kind. -/
inductive SameReading : EStateM.Result SyntaxError Cursor Progression →
    EStateM.Result SyntaxError Cursor Declaration → Prop
  | ok {d c} : SameReading (.ok (.assign d) c) (.ok d c)
  | error {e e' c c'} : e.tag = e'.tag → SameReading (.error e c) (.error e' c')

/-- A declaration is read the same as a clause that is one. -/
theorem sameReading_map (p : Parse Declaration) (c : Cursor) :
    SameReading ((p >>= fun d => pure (.assign d) : Parse Progression) c) (p c) := by
  cases h : p c with
  | ok d c' =>
    rw [bind_of_ok h]
    exact .ok
  | error e c' =>
    rw [bind_of_error h]
    exact .error rfl

section

variable {rd ts : List Token} {l n e : Token} {d : Nat}

/-- In front of an `=` a symbol is a value on its own. -/
theorem valueText_of_equal (hn : n.kind = .symbol) (he : e.kind = .delimiter .equal) :
    valueText ⟨rd, n :: e :: ts, d⟩ = .ok n.value ⟨n :: rd, e :: ts, d⟩ := by
  have hn' : n.kind ≠ .endOfInput := by simp [hn]
  have he' : e.kind ≠ .endOfInput := by simp [he]
  simp [valueText, Cursor.peek_cons hn', hn, Cursor.advance_cons hn', Cursor.sees_cons he', he]

/-- A name and an `=` are read, and then an expression. -/
theorem assignment_of_equal (hn : n.kind = .symbol) (he : e.kind = .delimiter .equal) :
    assignment ⟨rd, n :: e :: ts, d⟩ =
      (expression >>= fun x => pure ⟨n.value, x⟩ : Parse Declaration) ⟨e :: n :: rd, ts, d⟩ := by
  have he' : e.kind ≠ .endOfInput := by simp [he]
  rw [assignment, bind_of_ok (expectSymbol_cons_of_eq hn _ _),
    bind_of_ok (expect_cons_of_eq he' he _)]

/-- In front of a symbol the word of a declaration is left out. -/
theorem declaration_of_symbol (hn : n.kind = .symbol) :
    declaration ⟨rd, n :: ts, d⟩ = assignment ⟨rd, n :: ts, d⟩ := by
  have hn' : n.kind ≠ .endOfInput := by simp [hn]
  simp [declaration_eq, Cursor.sees_cons hn', hn]

theorem declaration_of_letWord (hl : l.kind = .keyword .letWord) :
    declaration ⟨rd, l :: ts, d⟩ = assignment ⟨l :: rd, ts, d⟩ := by
  have hl' : l.kind ≠ .endOfInput := by simp [hl]
  simp [declaration_eq, Cursor.sees_cons hl', hl, Cursor.advance_cons hl']

theorem progression_of_symbol (hn : n.kind = .symbol) :
    progression ⟨rd, n :: ts, d⟩ = bareProgression ⟨rd, n :: ts, d⟩ := by
  have hn' : n.kind ≠ .endOfInput := by simp [hn]
  simp [progression_eq, Cursor.sees_cons hn', hn]

/-- Behind the word for it a clause is an assignment. -/
theorem progression_of_letWord (hl : l.kind = .keyword .letWord) :
    progression ⟨rd, l :: ts, d⟩ =
      (assignment >>= fun d => pure (.assign d) : Parse Progression) ⟨l :: rd, ts, d⟩ := by
  have hl' : l.kind ≠ .endOfInput := by simp [hl]
  have hsees : Cursor.sees ⟨rd, l :: ts, d⟩ (.keyword .letWord) = true := by
    rw [Cursor.sees_cons hl', hl, decide_eq_true rfl]
  rw [progression_eq, sees_bind_apply, if_pos hsees]
  exact bind_apply_congr (declaration_of_letWord hl) _

/-- A name without a point may leave out the word. -/
theorem progression_of_no_point (hn : n.kind = .symbol) (he : e.kind = .delimiter .equal)
    (hdot : '.' ∉ n.value.toList) :
    progression ⟨rd, n :: e :: ts, d⟩ =
      (assignment >>= fun d => pure (.assign d) : Parse Progression) ⟨rd, n :: e :: ts, d⟩ := by
  rw [progression_of_symbol hn, bareProgression_of_equal (valueText_of_equal hn he) he hdot,
    bind_apply_congr (assignment_of_equal hn he), bind_assoc]
  simp only [pure_bind]

/-- A name with a point may not. -/
theorem progression_of_point (rd ts : List Token) (d : Nat) (hn : n.kind = .symbol)
    (he : e.kind = .delimiter .equal) (hdot : '.' ∈ n.value.toList) :
    ∃ x c', progression ⟨rd, n :: e :: ts, d⟩ = .error x c' ∧ x.tag = .missingName := by
  rw [progression_of_symbol hn, bareProgression_of_point (valueText_of_equal hn he) he hdot]
  exact ⟨_, _, rfl, rfl⟩

/-- **The two readings of an assignment** are the same exactly if its name holds no point. -/
theorem sameReading_iff_no_point (hn : n.kind = .symbol) (he : e.kind = .delimiter .equal) :
    SameReading (progression ⟨rd, n :: e :: ts, d⟩) (declaration ⟨rd, n :: e :: ts, d⟩) ↔
      '.' ∉ n.value.toList := by
  rw [declaration_of_symbol hn]
  constructor
  · intro h hdot
    obtain ⟨x, c', hx, htag⟩ := progression_of_point rd ts d hn he hdot
    rw [hx, assignment_of_equal hn he] at h
    generalize hy : (expression >>= fun x => pure ⟨n.value, x⟩ : Parse Declaration)
      ⟨e :: n :: rd, ts, d⟩ = y at h
    -- the declaration is accepted, or its expression is refused, which is for another reason
    cases h with
    | error hsame =>
      have hother := (failsWith_expression.map (Declaration.mk n.value)) _ _ _ hy
      exact hother (hsame ▸ htag)
  · intro hdot
    rw [progression_of_no_point hn he hdot]
    exact sameReading_map _ _

end

/-! ## Loop headers -/

/-- **The parse `p` accepts** the tokens from the cursor `c` on up to `behind`, and returns `a`. -/
def Accepts (p : Parse α) (c : Cursor) (a : α) (behind : List Token) : Prop :=
  ∃ c', p c = .ok a c' ∧ c'.rest = behind

/-- What a parse does depends on the tokens that are left and on nothing else of the cursor. -/
theorem Predictive.accepts_congr {p : Parse α} (h : Predictive p) (c c' : Cursor)
    (hrest : c.rest = c'.rest) (a : α) (behind : List Token) :
    Accepts p c a behind ↔ Accepts p c' a behind := by
  have hstep : Cursor.InStep c.rest c.rest c c' := ⟨0, rfl, hrest.symm⟩
  have hagree := h.agree (simulation_inStep rfl) hstep
  unfold Accepts
  generalize p c = x at hagree ⊢
  generalize p c' = y at hagree ⊢
  cases hagree with
  | ok hd =>
    obtain ⟨k, hk, hk'⟩ := hd
    simp [hk, hk']
  | error _ => simp

/-- The first two clauses of a loop header. -/
def firstClauses : Parse (Declaration × Expr) := do
  skip
  let start ← declaration
  let _ ← expect (.delimiter .semicolon) "after for declaration"
  return (start, ← expression)

/-- The first two clauses of a loop header, and the semicolon behind them. -/
def openingClauses : Parse (Declaration × Expr) := do
  let clauses ← firstClauses
  let _ ← expect (.delimiter .semicolon) "after for condition"
  return clauses

/-- The header of a loop. -/
def header : Parse ((Declaration × Expr) × Progression) := do
  let clauses ← openingClauses
  return (clauses, ← progression)

/-- A loop is its header and a body. -/
theorem loop_eq (inner : String → Parse (List Instruction)) :
    loop inner = header >>= fun h => inner "for body" >>= fun body =>
      pure (.loop h.1.1 h.1.2 h.2 body) := by
  simp only [loop, header, openingClauses, firstClauses, bind_assoc, pure_bind]

theorem predictive_firstClauses : Predictive firstClauses :=
  .skipping (predictive_declaration.bind fun _ => .expect _ _ (predictive_expression.map _))

theorem predictive_openingClauses : Predictive openingClauses :=
  predictive_firstClauses.bind fun _ => .expect _ _ (.pure _)

section

variable {rd ts pre behind : List Token} {l n e : Token} {d : Nat} {c : Cursor}
  {o : Declaration × Expr}

/-- The first two clauses end with a semicolon, and nothing is looked at behind it. -/
theorem openingClauses_of_endFree (he : EndFree ts) (h : openingClauses ⟨rd, ts, d⟩ = .ok o c) :
    ∃ us, ts = us ++ c.rest ∧
      ∀ xs, openingClauses ⟨rd, us ++ xs, d⟩ = .ok o ⟨us.reverse ++ rd, xs, d⟩ := by
  obtain ⟨o', c₁, h₁, h₂⟩ := bind_eq_ok.mp h
  have hsteady := predictive_firstClauses.steady (Q := fun _ => False) fun _ h => h.elim
  obtain ⟨us, hus⟩ := hsteady.ok (c := ⟨rd, ts, d⟩) he h₁
  have hts : ts = us ++ c₁.rest := hus.rest
  obtain ⟨rd₁, ts₁, d₁⟩ := c₁
  cases ts₁ with
  | nil => cases h₂
  | cons u ts₁ =>
    have hu : u.kind ≠ .endOfInput := (endFree_cons.mp (he.of_suffix ⟨us, hts.symm⟩)).1
    by_cases hsemi : u.kind = .delimiter .semicolon
    · rw [bind_of_ok (expect_cons_of_eq hu hsemi _)] at h₂
      cases h₂
      refine ⟨us ++ [u], by simp [hts], fun xs => ?_⟩
      have hrun : firstClauses ⟨rd, us ++ u :: xs, d⟩ =
          .ok o (Cursor.past ⟨rd, ts, d⟩ us (u :: xs)) := hus.run (List.cons_ne_nil _ _) rfl
      rw [List.append_assoc, List.singleton_append, openingClauses, bind_of_ok hrun, Cursor.past,
        bind_of_ok (expect_cons_of_eq hu hsemi _)]
      simp
    · rw [bind_of_error (expect_cons_of_ne hu hsemi _)] at h₂
      cases h₂

/-- **The first two clauses** are read the same whatever comes behind them. -/
theorem openingClauses_again (h : Accepts openingClauses ⟨rd, pre ++ behind, d⟩ o behind)
    (xs : List Token) :
    openingClauses ⟨rd, pre ++ xs, d⟩ = .ok o ⟨pre.reverse ++ rd, xs, d⟩ := by
  obtain ⟨c, hc, rfl⟩ := h
  -- nothing is read behind an end mark, so it may be taken off with what is behind it
  obtain ⟨us, vs, hts, hus, hvs⟩ := exists_append_ends (pre ++ c.rest)
  have hextend : Cursor.mk rd (us ++ vs) d = Cursor.extend ⟨rd, us, d⟩ vs := rfl
  have hagree := predictive_openingClauses.agree (simulation_extend hvs) hextend
  rw [← hts, hc] at hagree
  generalize hx : openingClauses ⟨rd, us, d⟩ = x at hagree
  cases hagree with
  | @ok _ c₁ _ hc₁ =>
    obtain ⟨ws, rfl, hrun⟩ := openingClauses_of_endFree hus hx
    subst hc₁
    obtain rfl : pre = ws := by
      simpa [Cursor.extend] using hts
    exact hrun xs

/-- A header is accepted if its last clause is, behind the first two. -/
theorem accepts_header (h : Accepts openingClauses ⟨rd, pre ++ behind, d⟩ o behind)
    (xs : List Token) {o' : Declaration × Expr} {q : Progression} {rest : List Token} :
    Accepts header ⟨rd, pre ++ xs, d⟩ (o', q) rest ↔
      o' = o ∧ Accepts progression ⟨pre.reverse ++ rd, xs, d⟩ q rest := by
  unfold Accepts
  rw [header, bind_of_ok (openingClauses_again h xs)]
  cases hq : progression ⟨pre.reverse ++ rd, xs, d⟩ with
  | ok q' c' =>
    rw [bind_of_ok hq, pure_apply]
    simp [and_assoc, eq_comm]
  | error x c' =>
    rw [bind_of_error hq]
    simp

/-- The last clause without the word is accepted if it is with it and the name holds no point. -/
theorem accepts_progression_iff (hl : l.kind = .keyword .letWord) (hn : n.kind = .symbol)
    (he : e.kind = .delimiter .equal) {q : Progression} {rest : List Token} :
    Accepts progression ⟨rd, n :: e :: ts, d⟩ q rest ↔
      '.' ∉ n.value.toList ∧ Accepts progression ⟨rd, l :: n :: e :: ts, d⟩ q rest := by
  by_cases hdot : '.' ∈ n.value.toList
  · obtain ⟨x, c', hx, -⟩ := progression_of_point rd ts d hn he hdot
    simp [Accepts, hx, hdot]
  · -- behind the word the same is left as without it, and that is all an assignment depends on
    have hassign := (predictive_assignment.map Progression.assign).accepts_congr
      ⟨rd, n :: e :: ts, d⟩ ⟨l :: rd, n :: e :: ts, d⟩ rfl q rest
    unfold Accepts at hassign ⊢
    rwa [progression_of_no_point hn he hdot, progression_of_letWord hl, and_iff_right hdot]

end

/-- **An assignment reads the same with and without its word if its name holds no point**, and
never otherwise. So the last clause of a loop header may leave out the word exactly in front of such
a name, and then nothing else changes. -/
theorem progression_agrees_iff_no_point (n e : Token) (ts : List Token) (hn : n.kind = .symbol)
    (he : e.kind = .delimiter .equal) :
    (∀ rd d, SameReading (progression ⟨rd, n :: e :: ts, d⟩) (declaration ⟨rd, n :: e :: ts, d⟩) ↔
        '.' ∉ n.value.toList) ∧
      ∀ (l : Token) (rd pre behind : List Token) (d : Nat) (o : Declaration × Expr),
        l.kind = .keyword .letWord → Accepts openingClauses ⟨rd, pre ++ behind, d⟩ o behind →
        ∀ h rest, Accepts header ⟨rd, pre ++ n :: e :: ts, d⟩ h rest ↔
          '.' ∉ n.value.toList ∧ Accepts header ⟨rd, pre ++ l :: n :: e :: ts, d⟩ h rest := by
  refine ⟨fun rd d => sameReading_iff_no_point hn he, ?_⟩
  rintro l rd pre behind d o hl ho ⟨o', q⟩ rest
  rw [accepts_header ho, accepts_header ho, accepts_progression_iff hl hn he]
  exact and_left_comm

/-- The tokens of `for let i = 0; i;`. -/
def countingUp : List Token :=
  [⟨.keyword .forWord, "for", 1, 1⟩, ⟨.keyword .letWord, "let", 1, 5⟩, ⟨.symbol, "i", 1, 9⟩,
    ⟨.delimiter .equal, "=", 1, 11⟩, ⟨.symbol, "0", 1, 13⟩, ⟨.delimiter .semicolon, ";", 1, 14⟩,
    ⟨.symbol, "i", 1, 16⟩, ⟨.delimiter .semicolon, ";", 1, 17⟩]

/-- Behind them `j = 2` is the same clause as `let j = 2`. -/
theorem progression_agrees_countingUp :
    let j : Token := ⟨.symbol, "j", 1, 19⟩
    let equal : Token := ⟨.delimiter .equal, "=", 1, 21⟩
    let two : Token := ⟨.symbol, "2", 1, 23⟩
    let word : Token := ⟨.keyword .letWord, "let", 1, 19⟩
    j.kind = .symbol ∧ equal.kind = .delimiter .equal ∧ word.kind = .keyword .letWord ∧
      '.' ∉ j.value.toList ∧
      SameReading (progression ⟨[], [j, equal, two], 0⟩) (declaration ⟨[], [j, equal, two], 0⟩) ∧
      Accepts openingClauses ⟨[], countingUp, 0⟩ (⟨"i", .value "0"⟩, .value "i") [] ∧
      ∀ h rest, Accepts header ⟨[], countingUp ++ [j, equal, two], 0⟩ h rest ↔
        Accepts header ⟨[], countingUp ++ [word, j, equal, two], 0⟩ h rest := by
  intro j equal two word
  have hopen : Accepts openingClauses ⟨[], countingUp, 0⟩ (⟨"i", .value "0"⟩, .value "i") [] :=
    ⟨⟨countingUp.reverse, [], 0⟩, by cbv, rfl⟩
  have hdot : '.' ∉ j.value.toList := by decide
  obtain ⟨hread, hheader⟩ := progression_agrees_iff_no_point j equal [two] rfl rfl
  refine ⟨rfl, rfl, rfl, hdot, (hread [] 0).mpr hdot, hopen, fun h rest => ?_⟩
  have hiff := hheader word [] countingUp [] 0 _ rfl (by simpa using hopen) h rest
  rwa [and_iff_right hdot] at hiff

/-- The tokens of `1.5 = 2`. -/
def numberSet : List Token :=
  [⟨.symbol, "1.5", 1, 1⟩, ⟨.delimiter .equal, "=", 1, 5⟩, ⟨.symbol, "2", 1, 7⟩]

/-- A number with a point is refused as a name without the word, where a declaration of it would be
accepted. -/
theorem progression_disagrees_numberSet :
    tokenize .canonical "1.5 = 2" = .ok numberSet ∧
      (∃ e, progression ⟨[], numberSet, 0⟩ = .error e ⟨[numberSet[0]], numberSet.tail, 0⟩ ∧
        e.tag = .missingName) ∧
      declaration ⟨[], numberSet, 0⟩ = .ok ⟨"1.5", .value "2"⟩ ⟨numberSet.reverse, [], 0⟩ ∧
      ¬ SameReading (progression ⟨[], numberSet, 0⟩) (declaration ⟨[], numberSet, 0⟩) := by
  have hprog : ∃ e, progression ⟨[], numberSet, 0⟩ =
      .error e ⟨[numberSet[0]], numberSet.tail, 0⟩ ∧ e.tag = .missingName :=
    ⟨⟨.missingName, "Expected name of variable to declare. Got '1.5'.", numberSet[1]?, 1, 5⟩,
      by cbv, rfl⟩
  have hdecl : declaration ⟨[], numberSet, 0⟩ =
      .ok ⟨"1.5", .value "2"⟩ ⟨numberSet.reverse, [], 0⟩ := by cbv
  refine ⟨by cbv, hprog, hdecl, fun h => ?_⟩
  obtain ⟨e, he, -⟩ := hprog
  rw [he, hdecl] at h
  cases h

end Parse

end BlockLang
