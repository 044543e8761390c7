import BlockLang.Proofs.Grammar.Spans

/-!
# Single steps of a parse

What the primitive parses do to a cursor, as equations. A cursor whose tokens hold no end mark is
at the end of the input exactly if no tokens are left, and every other step moves it by one token.
-/

namespace BlockLang

/-- No token is an end mark. -/
def EndFree (ts : List Token) : Prop := ∀ t ∈ ts, t.kind ≠ .endOfInput

@[simp] theorem endFree_nil : EndFree [] := fun _ h => absurd h List.not_mem_nil

@[simp] theorem endFree_cons {t : Token} {ts : List Token} :
    EndFree (t :: ts) ↔ t.kind ≠ .endOfInput ∧ EndFree ts :=
  List.forall_mem_cons

theorem EndFree.of_suffix {ts us : List Token} (h : EndFree ts) (hs : us <:+ ts) : EndFree us :=
  fun t ht => h t (hs.subset ht)

namespace Cursor

variable {rd ts : List Token} {t : Token} {d : Nat}

@[simp] theorem peek_nil : peek ⟨rd, [], d⟩ = none := rfl

theorem peek_cons (h : t.kind ≠ .endOfInput) : peek ⟨rd, t :: ts, d⟩ = some t := if_neg h

@[simp] theorem advance_nil : advance ⟨rd, [], d⟩ = ⟨rd, [], d⟩ := rfl

theorem advance_cons (h : t.kind ≠ .endOfInput) :
    advance ⟨rd, t :: ts, d⟩ = ⟨t :: rd, ts, d⟩ := if_neg h

@[simp] theorem sees_nil {k : Kind} : sees ⟨rd, [], d⟩ k = false := rfl

theorem sees_cons (h : t.kind ≠ .endOfInput) {k : Kind} :
    sees ⟨rd, t :: ts, d⟩ k = decide (t.kind = k) := by
  by_cases hk : t.kind = k <;> simp [sees, peekKind, peek_cons h, hk]

/-- What a cursor sees is what its terminals start with. -/
theorem sees_iff {c : Cursor} (he : EndFree c.rest) {k : Kind} (hk : k ≠ .symbol) :
    c.sees k = true ↔ StartsWith k (terminals c.rest) := by
  obtain ⟨rd, ts, d⟩ := c
  cases ts with
  | nil => simp
  | cons t ts =>
    rw [sees_cons (endFree_cons.mp he).1, terminals_cons, startsWith_cons,
      Token.terminal_eq_mark hk, decide_eq_true_iff]

@[simp] theorem peekKind_nil : peekKind ⟨rd, [], d⟩ = none := rfl

theorem peekKind_cons (h : t.kind ≠ .endOfInput) : peekKind ⟨rd, t :: ts, d⟩ = some t.kind := by
  rw [peekKind, peek_cons h, Option.map_some]

end Cursor

namespace Parse

variable {α β : Type}

/-! ## The monad -/

@[simp] theorem pure_apply (a : α) (c : Cursor) : (pure a : Parse α) c = .ok a c := rfl

@[simp] theorem throw_apply (e : SyntaxError) (c : Cursor) :
    (throw e : Parse α) c = .error e c := rfl

theorem bind_of_ok {p : Parse α} {c c' : Cursor} {a : α} (h : p c = .ok a c') (f : α → Parse β) :
    (p >>= f) c = f a c' := by
  simp only [bind, EStateM.bind, h]

theorem bind_of_error {p : Parse α} {c c' : Cursor} {e : SyntaxError} (h : p c = .error e c')
    (f : α → Parse β) : (p >>= f) c = .error e c' := by
  simp only [bind, EStateM.bind, h]

theorem bind_eq_ok {p : Parse α} {f : α → Parse β} {c c' : Cursor} {b : β} :
    (p >>= f) c = .ok b c' ↔ ∃ a c₁, p c = .ok a c₁ ∧ f a c₁ = .ok b c' := by
  cases h : p c with
  | ok a c₁ => simp [bind_of_ok h]
  | error e c₁ => simp [bind_of_error h]

theorem bind_eq_error {p : Parse α} {f : α → Parse β} {c c' : Cursor} {e : SyntaxError} :
    (p >>= f) c = .error e c' ↔
      p c = .error e c' ∨ ∃ a c₁, p c = .ok a c₁ ∧ f a c₁ = .error e c' := by
  cases h : p c with
  | ok a c₁ => simp [bind_of_ok h]
  | error e c₁ => simp [bind_of_error h]

/-- What comes behind a parse sees nothing but its result. -/
theorem bind_apply_congr {p q : Parse α} {c c' : Cursor} (h : p c = q c') (f : α → Parse β) :
    (p >>= f) c = (q >>= f) c' := by
  simp only [bind, EStateM.bind, h]

@[simp] theorem peek_bind_apply (f : Option Token → Parse α) (c : Cursor) :
    (peek >>= f) c = f c.peek c := rfl

@[simp] theorem sees_bind_apply (k : Kind) (f : Bool → Parse α) (c : Cursor) :
    (sees k >>= f) c = f (c.sees k) c := rfl

@[simp] theorem skip_bind_apply (f : Unit → Parse α) (c : Cursor) :
    (skip >>= f) c = f () c.advance := rfl

theorem skipComma_bind (p : Parse α) :
    (skipComma >>= fun _ => p) = (sees (.delimiter .comma) >>= fun b =>
      if b = true then skip >>= fun _ => p else p) := by
  funext c
  cases h : c.sees (.delimiter .comma) <;> simp [skipComma, h]

@[simp] theorem skip_apply (c : Cursor) : skip c = .ok () c.advance := rfl

@[simp] theorem failIncomplete_apply (m : String) (c : Cursor) :
    (failIncomplete m : Parse α) c = .error (c.incomplete m) c := rfl

variable {rd ts : List Token} {t : Token} {d : Nat}

theorem next_bind_apply (f : Option Token → Parse α) (c : Cursor) :
    (next >>= f) c = f c.peek c.advance := rfl

theorem next_bind_nil (f : Option Token → Parse α) :
    (next >>= f) ⟨rd, [], d⟩ = f none ⟨rd, [], d⟩ :=
  rfl

theorem next_bind_cons (h : t.kind ≠ .endOfInput) (f : Option Token → Parse α) :
    (next >>= f) ⟨rd, t :: ts, d⟩ = f (some t) ⟨t :: rd, ts, d⟩ := by
  rw [next_bind_apply, Cursor.peek_cons h, Cursor.advance_cons h]

/-! ## Required tokens -/

@[simp] theorem requireMore_nil (what : String) :
    requireMore what ⟨rd, [], d⟩ =
      .error (Cursor.incomplete ⟨rd, [], d⟩ s!"Unexpected end of input in {what}.") ⟨rd, [], d⟩ :=
  rfl

theorem requireMore_cons (h : t.kind ≠ .endOfInput) (what : String) :
    requireMore what ⟨rd, t :: ts, d⟩ = .ok t ⟨rd, t :: ts, d⟩ := by
  simp only [requireMore, peek_bind_apply, Cursor.peek_cons h, pure_apply]

@[simp] theorem expect_nil (k : Kind) (what : String) :
    expect k what ⟨rd, [], d⟩ =
      .error (Cursor.incomplete ⟨rd, [], d⟩
        s!"Expected '{k.spelling}' {what}, got end of input.") ⟨rd, [], d⟩ :=
  rfl

theorem expect_cons_of_eq (h : t.kind ≠ .endOfInput) {k : Kind} (hk : t.kind = k) (what : String) :
    expect k what ⟨rd, t :: ts, d⟩ = .ok t ⟨t :: rd, ts, d⟩ := by
  simp only [expect, peek_bind_apply, Cursor.peek_cons h, if_pos hk, skip_bind_apply, pure_apply,
    Cursor.advance_cons h]

theorem expect_cons_of_ne (h : t.kind ≠ .endOfInput) {k : Kind} (hk : t.kind ≠ k) (what : String) :
    expect k what ⟨rd, t :: ts, d⟩ =
      .error (.about .missingDelimiter
        s!"Expected '{k.spelling}' {what}, got '{t.value}'." t) ⟨rd, t :: ts, d⟩ := by
  simp only [expect, peek_bind_apply, Cursor.peek_cons h, if_neg hk, throw_apply]

@[simp] theorem expectSymbol_nil (tag : SyntaxError.Tag) (message : String) :
    expectSymbol tag message ⟨rd, [], d⟩ =
      .error (Cursor.incomplete ⟨rd, [], d⟩ message) ⟨rd, [], d⟩ :=
  rfl

theorem expectSymbol_cons_of_eq (h : t.kind = .symbol) (tag : SyntaxError.Tag) (message : String) :
    expectSymbol tag message ⟨rd, t :: ts, d⟩ = .ok t.value ⟨t :: rd, ts, d⟩ := by
  have he : t.kind ≠ .endOfInput := by simp [h]
  simp only [expectSymbol, peek_bind_apply, Cursor.peek_cons he, if_pos h, skip_bind_apply,
    pure_apply, Cursor.advance_cons he]

theorem expectSymbol_cons_of_ne (he : t.kind ≠ .endOfInput) (h : t.kind ≠ .symbol)
    (tag : SyntaxError.Tag) (message : String) :
    expectSymbol tag message ⟨rd, t :: ts, d⟩ =
      .error (.about tag s!"{message} Got '{t.value}'." t) ⟨rd, t :: ts, d⟩ := by
  simp only [expectSymbol, peek_bind_apply, Cursor.peek_cons he, if_neg h, throw_apply]

/-! ## Repetition and bodies -/

/-- A step is **productive** if it has read a token whenever it finds something. -/
def Productive (step : Parse (Option α)) : Prop :=
  ∀ ⦃c c' a⦄, step c = .ok (some a) c' → c'.rest.length < c.rest.length

theorem many_of_none {step : Parse (Option α)} {c c' : Cursor} (h : step c = .ok none c') :
    many step c = .ok [] c' := by
  rw [many, h]

theorem many_of_some {step : Parse (Option α)} {c c' : Cursor} {a : α}
    (h : step c = .ok (some a) c') (hlt : c'.rest.length < c.rest.length) :
    many step c = (bind (many step) fun as => pure (a :: as) : Parse (List α)) c' := by
  rw [many, h]
  simp only [hlt, if_true, bind, EStateM.bind, pure, EStateM.pure]
  cases many step c' <;> rfl

theorem many_of_stalled {step : Parse (Option α)} {c c' : Cursor} {a : α}
    (h : step c = .ok (some a) c') (hlt : ¬ c'.rest.length < c.rest.length) :
    many step c = .error stalled c' := by
  rw [many, h]
  simp only [hlt, if_false]

theorem many_of_error {step : Parse (Option α)} {c c' : Cursor} {e : SyntaxError}
    (h : step c = .error e c') : many step c = .error e c' := by
  rw [many, h]

theorem deeper_eq_ok {p : Parse α} {c c' : Cursor} {a : α} :
    deeper p c = .ok a c' ↔
      ∃ c₁, p { c with depth := c.depth + 1 } = .ok a c₁ ∧
        c' = { c₁ with depth := c₁.depth - 1 } := by
  rw [deeper]
  cases p { c with depth := c.depth + 1 } <;> simp [eq_comm]

theorem deeper_eq_error {p : Parse α} {c c' : Cursor} {e : SyntaxError} :
    deeper p c = .error e c' ↔
      ∃ c₁, p { c with depth := c.depth + 1 } = .error e c₁ ∧
        c' = { c₁ with depth := c₁.depth - 1 } := by
  rw [deeper]
  cases p { c with depth := c.depth + 1 } <;> simp [eq_comm]

end Parse

end BlockLang
