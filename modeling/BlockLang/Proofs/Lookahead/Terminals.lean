import BlockLang.Proofs.Lookahead.Program

/-!
# Nothing but terminals

The grammar sees no more of a token than its terminal. So neither the locations of tokens nor the
spelling of keywords and punctuation tell which program a token list denotes, nor which violation is
found in it, nor at which of its tokens.
-/

namespace BlockLang

/-! ## Tokens that are alike -/

/-- **Tokens that are alike** to the grammar: of the same kind, and with the same text if they are
symbols. -/
def Token.Alike (t u : Token) : Prop := t.kind = u.kind ∧ (t.kind = .symbol → t.value = u.value)

instance : DecidableRel Token.Alike := fun t u =>
  inferInstanceAs (Decidable (t.kind = u.kind ∧ (t.kind = .symbol → t.value = u.value)))

theorem Token.Alike.terminal_eq {t u : Token} (h : t.Alike u) : t.terminal = u.terminal := by
  obtain ⟨hkind, hvalue⟩ := h
  by_cases ht : t.kind = .symbol
  · rw [terminal_of_symbol ht, terminal_of_symbol (hkind ▸ ht), hvalue ht]
  · rw [terminal_of_ne ht, terminal_of_ne (hkind ▸ ht), hkind]

/-- Lists of tokens that are alike have the same terminals. -/
theorem terminals_eq_of_alike {ts us : List Token} (h : List.Forall₂ Token.Alike ts us) :
    terminals ts = terminals us := by
  induction h with
  | nil => rfl
  | cons ht _ ih => rw [terminals_cons, terminals_cons, ht.terminal_eq, ih]

/-- Two tokens stand at the same index of the lists `ts` and `us`, or neither is there. -/
def SameIndex (ts us : List Token) (t u : Option Token) : Prop :=
  (t = none ∧ u = none) ∨ ∃ k < ts.length, t = ts[k]? ∧ u = us[k]?

/-! ## Cursors in front of the same terminals -/

namespace Cursor

/-- Cursors in front of the same terminals see the same next one, and are in front of the same
terminals behind it. -/
theorem next_terminals {c c' : Cursor} (h : terminals c.rest = terminals c'.rest) :
    c.front = c'.front ∧ terminals c.advance.rest = terminals c'.advance.rest := by
  obtain ⟨rd, ts, d⟩ := c
  obtain ⟨rd', ts', d'⟩ := c'
  match ts, ts', h with
  | [], [], _ => exact ⟨rfl, rfl⟩
  | t :: ts, t' :: ts', h =>
    have ht : t.terminal = t'.terminal := (List.cons.inj h).1
    have hts : terminals ts = terminals ts' := (List.cons.inj h).2
    have hkind : t.kind = t'.kind := by rw [← t.kind_terminal, ht, t'.kind_terminal]
    by_cases hend : t.kind = .endOfInput
    · have hend' : t'.kind = .endOfInput := hkind ▸ hend
      simp [front, peek, advance, Token.first?, hend, hend', ht, hts]
    · have hend' : t'.kind ≠ .endOfInput := hkind ▸ hend
      rw [front_of_some (peek_cons hend), front_of_some (peek_cons hend'), advance_cons hend,
        advance_cons hend', ht]
      exact ⟨rfl, hts⟩

/-- The next token is the first one left, if there is a next one. -/
theorem peek_eq (c : Cursor) : c.peek = if c.front = none then none else c.rest.head? := by
  obtain ⟨rd, ts, d⟩ := c
  cases ts with
  | nil => rfl
  | cons t ts =>
    by_cases ht : t.kind = .endOfInput
    · simp [front, peek, Token.first?, ht]
    · simp [front, peek_cons ht]

/-- What is left behind the next token, if there is a next one. -/
theorem rest_advance (c : Cursor) :
    c.advance.rest = if c.front = none then c.rest else c.rest.tail := by
  obtain ⟨rd, ts, d⟩ := c
  cases ts with
  | nil => rfl
  | cons t ts =>
    by_cases ht : t.kind = .endOfInput
    · simp [front, peek, Token.first?, advance, ht]
    · simp [front, peek_cons ht, advance_cons ht]

theorem incomplete_token (c : Cursor) (message : String) : (c.incomplete message).token = none := by
  unfold incomplete
  split <;> rfl

/-- A complaint is about the next token. -/
theorem complaint_token (c : Cursor) (tag : SyntaxError.Tag) (message : String → String)
    (ended : String) : (c.complaint tag message ended).token = c.peek := by
  cases h : c.peek with
  | none => rw [complaint, h, incomplete_token]
  | some t =>
    rw [complaint, h]
    rfl

/-- **Cursors in step**: as many tokens of `ts` have been read as of `us`. -/
def InStep (ts us : List Token) (c c' : Cursor) : Prop :=
  ∃ k, c.rest = ts.drop k ∧ c'.rest = us.drop k

namespace InStep

variable {ts us : List Token} {c c' : Cursor}

/-- In step through lists with the same terminals, cursors are in front of the same terminals. -/
theorem terminals_eq (h : InStep ts us c c') (hts : terminals ts = terminals us) :
    terminals c.rest = terminals c'.rest := by
  obtain ⟨k, hk, hk'⟩ := h
  have hdrop : (terminals ts).drop k = (terminals us).drop k := by rw [hts]
  simpa only [terminals, ← List.map_drop, ← hk, ← hk'] using hdrop

theorem advance (h : InStep ts us c c') (hfront : c.front = c'.front) :
    InStep ts us c.advance c'.advance := by
  obtain ⟨k, hk, hk'⟩ := h
  rw [InStep, rest_advance, rest_advance, ← hfront]
  split
  · exact ⟨k, hk, hk'⟩
  · exact ⟨k + 1, by rw [hk, List.tail_drop], by rw [hk', List.tail_drop]⟩

theorem peek (h : InStep ts us c c') (hfront : c.front = c'.front) :
    SameIndex ts us c.peek c'.peek := by
  obtain ⟨k, hk, hk'⟩ := h
  cases hc : c.peek with
  | none =>
    have hnone : c'.front = none := by rw [← hfront, front_of_none hc]
    exact .inl ⟨rfl, by rw [peek_eq, if_pos hnone]⟩
  | some t =>
    have hne : c.front ≠ none := by simp [front_of_some hc]
    have hget : some t = ts[k]? := by rw [← hc, peek_eq, if_neg hne, hk, List.head?_drop]
    have hlt : k < ts.length := (List.getElem?_eq_some_iff.mp hget.symm).1
    refine .inr ⟨k, hlt, hget, ?_⟩
    rw [peek_eq, ← hfront, if_neg hne, hk', List.head?_drop]

end InStep

end Cursor

namespace Parse

/-- Cursors in front of the same terminals see the same, and complain alike. -/
theorem simulation_terminals :
    Simulation (fun c c' => terminals c.rest = terminals c'.rest) fun e e' => e.tag = e'.tag where
  front h := (Cursor.next_terminals h).1
  advance h := (Cursor.next_terminals h).2
  depth _ h := h
  complaint _ h := by rw [Cursor.complaint_tag, Cursor.complaint_tag, (Cursor.next_terminals h).1]

/-- Cursors in step stay in step, and complain alike about tokens at the same index. -/
theorem simulation_inStep {ts us : List Token} (hts : terminals ts = terminals us) :
    Simulation (Cursor.InStep ts us)
      fun e e' => e.tag = e'.tag ∧ SameIndex ts us e.token e'.token where
  front h := simulation_terminals.front (h.terminals_eq hts)
  advance h := h.advance (simulation_terminals.front (h.terminals_eq hts))
  depth _ h := h
  complaint htag h := by
    refine ⟨simulation_terminals.complaint htag (h.terminals_eq hts), ?_⟩
    rw [Cursor.complaint_token, Cursor.complaint_token]
    exact h.peek (simulation_terminals.front (h.terminals_eq hts))

end Parse

namespace Program

/-- **Only the kinds of tokens and the texts of symbols are read.** Lists of tokens that are alike,
one by one, denote the same program, or errors of the same tag are found in them at the same
index. -/
theorem ofTokens_alike (limit : Int) (ts us : List Token) (h : List.Forall₂ Token.Alike ts us) :
    (∃ p, ofTokens limit ts = .ok p ∧ ofTokens limit us = .ok p) ∨
      ∃ e e', ofTokens limit ts = .error e ∧ ofTokens limit us = .error e' ∧
        e.tag = e'.tag ∧ SameIndex ts us e.token e'.token :=
  ofTokens_agree (Parse.simulation_inStep (terminals_eq_of_alike h)) limit ⟨0, rfl, rfl⟩

/-- A structure whose field has no type, on one line. -/
def untyped : List Token :=
  [⟨.keyword .data, "data", 1, 1⟩, ⟨.symbol, "P", 1, 6⟩, ⟨.delimiter .leftBrace, "\x7b", 1, 8⟩,
    ⟨.symbol, "x", 1, 10⟩, ⟨.delimiter .colon, ":", 1, 11⟩, ⟨.delimiter .rightBrace, "\x7d", 1, 13⟩]

/-- The same behind an alias and over several lines. -/
def untypedLines : List Token :=
  [⟨.keyword .data, "donnee", 1, 1⟩, ⟨.symbol, "P", 2, 1⟩, ⟨.delimiter .leftBrace, "\x7b", 2, 3⟩,
    ⟨.symbol, "x", 3, 5⟩, ⟨.delimiter .colon, ":", 3, 6⟩, ⟨.delimiter .rightBrace, "\x7d", 4, 1⟩]

/-- In both the type is missed at the closing brace. -/
theorem ofTokens_alike_untyped :
    ∃ e e', ofTokens 200 untyped = .error e ∧ ofTokens 200 untypedLines = .error e' ∧
      e.token = untyped[5]? ∧ e.tag = e'.tag ∧ SameIndex untyped untypedLines e.token e'.token := by
  have herror : ofTokens 200 untyped = .error ⟨.missingType,
      "Expected type for field with name: x. Got '\x7d'.", untyped[5]?, 1, 13⟩ := by cbv
  rcases ofTokens_alike 200 untyped untypedLines (by decide) with
    ⟨p, hp, -⟩ | ⟨e, e', he, he', htag, hindex⟩
  · rw [herror] at hp
    cases hp
  · refine ⟨e, e', he, he', ?_, htag, hindex⟩
    rw [herror] at he
    cases he
    rfl

end Program

end BlockLang
