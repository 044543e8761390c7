import BlockLang.Proofs.Lookahead.Predictive

/-!
# End marks

An end mark ends the input like the end of the token list: there is no next token, and reading on
does not move. So a cursor with an end mark and more behind its tokens simulates the cursor without
them, and no predictive parse tells the two apart.
-/

namespace BlockLang

/-- A list of tokens in which there is no next one: it is empty or starts with an end mark. -/
def Ends (ts : List Token) : Prop := Token.first? ts = none

theorem ends_nil : Ends [] := rfl

theorem ends_cons {t : Token} {ts : List Token} (h : t.kind = .endOfInput) : Ends (t :: ts) :=
  if_pos h

/-- The tokens in front of the first end mark, and the rest. -/
theorem exists_append_ends (ts : List Token) :
    ∃ us vs, ts = us ++ vs ∧ EndFree us ∧ Ends vs := by
  induction ts with
  | nil => exact ⟨[], [], rfl, endFree_nil, ends_nil⟩
  | cons t ts ih =>
    by_cases ht : t.kind = .endOfInput
    · exact ⟨[], t :: ts, rfl, endFree_nil, ends_cons ht⟩
    · obtain ⟨us, vs, rfl, hus, hvs⟩ := ih
      exact ⟨t :: us, vs, rfl, endFree_cons.mpr ⟨ht, hus⟩, hvs⟩

/-- What stands in front of the first end mark. -/
theorem takeWhile_append_ends {us vs : List Token} (hus : EndFree us) (hvs : Ends vs) :
    (us ++ vs).takeWhile (·.kind ≠ .endOfInput) = us := by
  have hends : vs.takeWhile (·.kind ≠ .endOfInput) = [] := by
    cases vs with
    | nil => rfl
    | cons v vs =>
      have hv : v.kind = .endOfInput := by simpa [Ends, Token.first?] using hvs
      simp [hv]
  rw [List.takeWhile_append_of_pos (fun t ht => by simpa using hus t ht), hends, List.append_nil]

namespace Cursor

variable {c : Cursor} {vs : List Token}

/-- The same cursor with more tokens at its end. -/
def extend (c : Cursor) (vs : List Token) : Cursor := { c with rest := c.rest ++ vs }

theorem peek_extend (h : Ends vs) : (c.extend vs).peek = c.peek := by
  obtain ⟨rd, ts, d⟩ := c
  cases ts with
  | nil => exact h
  | cons t ts => rfl

theorem advance_extend (h : Ends vs) : (c.extend vs).advance = c.advance.extend vs := by
  obtain ⟨rd, ts, d⟩ := c
  cases ts with
  | nil =>
    cases vs with
    | nil => rfl
    | cons v vs =>
      have hv : v.kind = .endOfInput := by simpa [Ends, Token.first?] using h
      exact if_pos hv
  | cons t ts =>
    by_cases ht : t.kind = .endOfInput <;> simp [advance, extend, ht]

end Cursor

namespace Parse

/-- Tokens in which there is no next one change nothing. -/
theorem simulation_extend {vs : List Token} (h : Ends vs) :
    Simulation (fun c c' => c' = c.extend vs) Eq where
  front := by
    rintro c _ rfl
    rw [Cursor.front, Cursor.front, Cursor.peek_extend h]
  advance := by
    rintro c _ rfl
    exact Cursor.advance_extend h
  depth := by
    rintro c _ f rfl
    rfl
  complaint := by
    rintro c _ tag message ended - rfl
    rw [Cursor.complaint, Cursor.complaint, Cursor.peek_extend h]
    rfl

end Parse

end BlockLang
