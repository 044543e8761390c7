import BlockLang.Proofs.Lookahead.Program

/-!
# The places of errors

A cursor stays between the tokens that it was put in front of. So an error of a program is about one
of the tokens, and then it stands where that token stands. If the input has ended, the error stands
just behind the last token.
-/

namespace BlockLang

/-- **Where an error stands in a token list**: at the token it is about, or behind the last one. -/
inductive SyntaxError.PlacedIn (ts : List Token) (e : SyntaxError) : Prop
  | about {t} : t ∈ ts → e.token = some t → e.line = t.line → e.col = t.col → PlacedIn ts e
  | ended {t} : ts.getLast? = some t → e.token = none → e.line = t.line →
      e.col = t.col + t.value.length → PlacedIn ts e

namespace Cursor

/-- The cursor stands somewhere between the tokens `ts`. -/
def Within (ts : List Token) (c : Cursor) : Prop := c.read.reverse ++ c.rest = ts

variable {ts : List Token} {c : Cursor}

theorem Within.advance (h : c.Within ts) : c.advance.Within ts := by
  obtain ⟨rd, rest, d⟩ := c
  cases rest with
  | nil => exact h
  | cons t rest =>
    by_cases ht : t.kind = .endOfInput
    · have hstay : advance ⟨rd, t :: rest, d⟩ = ⟨rd, t :: rest, d⟩ := if_pos ht
      rwa [hstay]
    · rw [advance_cons ht, Within, List.reverse_cons, List.append_assoc]
      exact h

/-- A complaint is about one of the tokens, or the last one has been read. -/
theorem Within.placedIn (h : c.Within ts) (he : EndFree ts) (hne : ts ≠ [])
    (tag : SyntaxError.Tag) (message : String → String) (ended : String) :
    (c.complaint tag message ended).PlacedIn ts := by
  obtain ⟨rd, rest, d⟩ := c
  dsimp only [Within] at h
  subst h
  cases rest with
  | cons t rest =>
    have ht : t.kind ≠ .endOfInput := he t (by simp)
    rw [complaint, peek_cons ht]
    exact .about (by simp) rfl rfl rfl
  | nil =>
    -- nothing is left, so what has been read is all the tokens
    cases rd with
    | nil => exact absurd rfl hne
    | cons u rd => exact .ended (t := u) (by simp) rfl rfl rfl

end Cursor

/-- **Reading stays within the tokens.** -/
theorem Parse.invariant_within {ts : List Token} (he : EndFree ts) (hne : ts ≠ []) :
    Invariant (Cursor.Within ts) (SyntaxError.PlacedIn ts) where
  advance h := h.advance
  depth _ h := h
  complaint _ h := h.placedIn he hne _ _ _

/-- **An error of a program stands in its tokens.** -/
theorem Program.ofTokens_placedIn {limit : Int} {ts : List Token} {e : SyntaxError}
    (he : EndFree ts) (h : ofTokens limit ts = .error e) : e.PlacedIn ts := by
  have hne : ts ≠ [] := by
    rintro rfl
    rw [ofTokens_nil] at h
    cases h
  have hstart : Cursor.Within ts ⟨[], ts, 0⟩ := rfl
  exact ofTokens_error_of_invariant (Parse.invariant_within he hne) hstart h

end BlockLang
