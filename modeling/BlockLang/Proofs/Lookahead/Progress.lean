import BlockLang.Proofs.Lookahead.EndMark
import BlockLang.Proofs.Recognition.Program

/-!
# Progress

A loop goes on for as long as its step finds something, so it ends because such a step has read a
token. How much a parse has read is known from what it recognises, in front of the first end mark;
and behind that nothing is read.
-/

namespace BlockLang

namespace Cursor

theorem length_rest_advance_le (c : Cursor) : c.advance.rest.length ≤ c.rest.length := by
  obtain ⟨rd, ts, d⟩ := c
  cases ts with
  | nil => exact Nat.le_refl _
  | cons t ts =>
    by_cases ht : t.kind = .endOfInput <;> simp [advance, ht]

theorem length_rest_advance_lt {c : Cursor} (h : c.peek ≠ none) :
    c.advance.rest.length < c.rest.length := by
  obtain ⟨rd, ts, d⟩ := c
  cases ts with
  | nil => exact absurd rfl h
  | cons t ts =>
    have ht : t.kind ≠ .endOfInput := fun ht => h (if_pos ht)
    rw [advance_cons ht]
    exact Nat.lt_succ_self _

end Cursor

namespace Parse

variable {α : Type} {p : Parse α} {S : Span α} {F : List Terminal → Prop} {c c' : Cursor} {a : α}

/-- A parse makes **progress** if it has read a token whenever it succeeds with a token in front. -/
def Progresses (p : Parse α) : Prop :=
  ∀ ⦃c c' a⦄, p c = .ok a c' → c.peek ≠ none → c'.rest.length < c.rest.length

/-- **What was read** is what the parse recognises in front of the end of the input, where there is
something to read if there is a next token. -/
theorem Predictive.spans (h : Predictive p) (hr : Recognizes p S F) (hp : p c = .ok a c') :
    ∃ us vs ms, c.rest = us ++ vs ∧ c'.rest = ms ++ vs ∧ S (terminals us) a (terminals ms) ∧
      (c.peek ≠ none → us ≠ []) := by
  obtain ⟨us, vs, hrest, hus, hvs⟩ := exists_append_ends c.rest
  have hextend : c = Cursor.extend { c with rest := us } vs := by rw [Cursor.extend, ← hrest]
  have hagree := h.agree (simulation_extend hvs) hextend
  rw [hp] at hagree
  generalize hx : p { c with rest := us } = x at hagree
  cases hagree with
  | @ok _ c₁ _ hc₁ =>
    refine ⟨us, vs, c₁.rest, hrest, by rw [hc₁, Cursor.extend], (hr.sound hus hx).2, ?_⟩
    rintro hpeek rfl
    rw [hextend, Cursor.peek_extend hvs] at hpeek
    exact hpeek rfl

/-- A parse makes progress if it recognises what holds a token. -/
theorem Predictive.progresses (h : Predictive p) (hr : Recognizes p S F)
    (hS : ∀ {ts a rest}, ts ≠ [] → S ts a rest → rest.length < ts.length) : Progresses p := by
  intro c c' a hp hpeek
  obtain ⟨us, vs, ms, hus, hms, hspan, hne⟩ := h.spans hr hp
  have hlt : ms.length < us.length := by
    simpa using hS (by simpa [terminals] using hne hpeek) hspan
  rw [hus, hms, List.length_append, List.length_append]
  omega

/-- A step is productive if what it recognises when it finds something holds a token. -/
theorem Predictive.productive {step : Parse (Option α)} {Stop : List Terminal → Prop}
    (h : Predictive step) (hr : Recognizes step (UntilSpan Stop S) F)
    (hS : ∀ {ts a rest}, S ts a rest → rest.length < ts.length) : Productive step := by
  intro c c' a hp
  obtain ⟨us, vs, ms, hus, hms, hspan, -⟩ := h.spans hr hp
  cases hspan with
  | item _ hspan =>
    have hlt : ms.length < us.length := by simpa using hS hspan
    rw [hus, hms, List.length_append, List.length_append]
    omega

/-- A token that has to be there is there, and is only looked at. -/
theorem requireMore_eq_ok {what : String} {t : Token} (h : requireMore what c = .ok t c') :
    c.peek ≠ none ∧ c' = c := by
  cases hc : c.peek <;> simp only [requireMore, peek_bind_apply, hc] at h <;> cases h
  exact ⟨by simp, rfl⟩

/-- **A step through separated items** is productive if the items make progress, whatever ends the
list: an item is only read where there is a token. -/
theorem productive_separatedStep (close : Kind) {item : Parse α} (what : String)
    (h : Progresses item) : Productive (separatedStep close item what) := by
  -- an item in front of which there has to be a token
  have hitem : ∀ {c c' : Cursor} {a : α}, (requireMore what >>= fun _ =>
      item >>= fun a => pure (some a) : Parse (Option α)) c = .ok (some a) c' →
      c'.rest.length < c.rest.length := by
    intro c c' a hp
    obtain ⟨t, c₁, h₁, h₂⟩ := bind_eq_ok.mp hp
    obtain ⟨hpeek, rfl⟩ := requireMore_eq_ok h₁
    obtain ⟨b, c₂, h₃, h₄⟩ := bind_eq_ok.mp h₂
    cases h₄
    exact h h₃ hpeek
  intro c c' a hp
  rw [separatedStep, sees_bind_apply] at hp
  split at hp
  · cases hp
  · obtain ⟨t, c₁, h₁, h₂⟩ := bind_eq_ok.mp hp
    obtain ⟨hpeek, rfl⟩ := requireMore_eq_ok h₁
    rw [sees_bind_apply] at h₂
    split at h₂
    · -- behind a comma, which was read
      rw [skip_bind_apply, sees_bind_apply] at h₂
      split at h₂
      · cases h₂
      · exact Nat.lt_of_lt_of_le (hitem h₂) (Cursor.length_rest_advance_le _)
    · obtain ⟨b, c₂, h₃, h₄⟩ := bind_eq_ok.mp h₂
      cases h₄
      exact h h₃ hpeek

end Parse

end BlockLang
