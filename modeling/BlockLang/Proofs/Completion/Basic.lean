import BlockLang.Proofs.Completion.Extends
import BlockLang.Proofs.Lookahead.Steady
import BlockLang.Proofs.Recognition.Basic

/-!
# Completion

A parse that fails because the input has ended can be helped: there are terminals that turn what is
left into a span. Where the input ends inside a part, that part is completed and the parts behind it
are spelled out from nothing; where it ends between two parts, the second is spelled out. What is
spelled out behind a value must not go on with it, so parts behind values start with a mark.
-/

namespace BlockLang

variable {α β : Type}

/-- The span of what may come behind the terminals `ts`. -/
def Span.after (ts : List Terminal) (S : Span α) : Span α := fun us a rest => S (ts ++ us) a rest

/-- **There are terminals that spell `S` out**, in front of anything that ends a value. -/
def Spells (S : Span α) : Prop :=
  ∃ us, Proper us ∧ ∃ a, ∀ tail, EndsValue tail → S (us ++ tail) a tail

theorem Spells.mono {S T : Span α} (h : Spells S) (hST : ∀ ts a rest, S ts a rest → T ts a rest) :
    Spells T := by
  obtain ⟨us, hp, a, hS⟩ := h
  exact ⟨us, hp, a, fun tail ht => hST _ _ _ (hS tail ht)⟩

/-- A value made of what is spelled out. -/
theorem Spells.map {S : Span α} (f : α → β) (h : Spells S) :
    Spells (fun ts b rest => ∃ a, S ts a rest ∧ b = f a) := by
  obtain ⟨us, hp, a, hS⟩ := h
  exact ⟨us, hp, f a, fun tail ht => ⟨a, hS tail ht, rfl⟩⟩

/-- A mark in front. -/
theorem Spells.mark {k : Kind} (hk : k ≠ .symbol ∧ k ≠ .endOfInput) {S : Span α} (h : Spells S) :
    Spells (fun ts a rest => ∃ ms, ts = .mark k :: ms ∧ S ms a rest) := by
  obtain ⟨us, hp, a, hS⟩ := h
  refine ⟨.mark k :: us, by simp [hk, hp], a, fun tail ht => ?_⟩
  exact ⟨us ++ tail, rfl, hS tail ht⟩

/-- One part in front of another, which starts with a mark. -/
theorem Spells.bind {k : Kind} (hk : k ≠ .symbol ∧ k ≠ .endOfInput ∧ k ≠ .delimiter .dot)
    {S : Span α} {T : α → Span β} (hS : Spells S) (hT : ∀ a, Spells ((T a).after [.mark k])) :
    Spells (fun ts b rest => ∃ a ms, S ts a ms ∧ T a ms b rest) := by
  obtain ⟨us, hus, a, ha⟩ := hS
  obtain ⟨vs, hvs, b, hb⟩ := hT a
  refine ⟨us ++ .mark k :: vs, by simp [hus, hvs, hk], b, fun tail ht => ?_⟩
  refine ⟨a, .mark k :: (vs ++ tail), ?_, hb tail ht⟩
  have hspan := ha (.mark k :: (vs ++ tail)) (by simp [hk])
  simpa using hspan

/-- A mark between two parts. -/
theorem Spells.between {k : Kind} (hk : k ≠ .symbol ∧ k ≠ .endOfInput ∧ k ≠ .delimiter .dot)
    {S : Span α} {T : α → Span β} (hS : Spells S) (hT : ∀ a, Spells (T a)) :
    Spells (fun ts b rest => ∃ a ms, S ts a (.mark k :: ms) ∧ T a ms b rest) := by
  refine (hS.bind hk (T := fun a ts b rest => ∃ ms, ts = .mark k :: ms ∧ T a ms b rest)
    fun a => ?_).mono ?_
  · obtain ⟨us, hus, b, hb⟩ := hT a
    exact ⟨us, hus, b, fun tail ht => ⟨us ++ tail, rfl, hb tail ht⟩⟩
  · rintro ts b rest ⟨a, _, ha, ms, rfl, hb⟩
    exact ⟨a, ms, ha, hb⟩

namespace Parse

/-- Whatever the parse `p` returns spans what it has read. -/
def Sound (p : Parse α) (S : Span α) : Prop :=
  ∀ ⦃c c' a⦄, EndFree c.rest → p c = .ok a c' →
    c'.rest <:+ c.rest ∧ S (terminals c.rest) a (terminals c'.rest)

theorem Recognizes.isSound {p : Parse α} {S : Span α} {F : List Terminal → Prop}
    (h : Recognizes p S F) : Sound p S :=
  fun _ _ _ he hp => h.sound he hp

theorem Sound.mono {p : Parse α} {S T : Span α} (h : Sound p S)
    (hST : ∀ {ts a rest}, S ts a rest → T ts a rest) : Sound p T :=
  fun _ _ _ he hp => (h he hp).imp_right hST

/-- **Completion**: if the parse `p` fails because the input has ended, what is left can be
completed to a span of `S`. -/
def Completes (p : Parse α) (S : Span α) : Prop :=
  ∀ ⦃c e c'⦄, EndFree c.rest → p c = .error e c' → e.tag = .incompleteInput →
    Spells (S.after (terminals c.rest))

theorem spells_name : Spells NameSpan :=
  ⟨[.symbol "x"], by simp, "x", fun _ _ => .symbol⟩

namespace Completes

variable {p q : Parse α} {S T : Span α}

theorem mono (h : Completes p S) (hST : ∀ ts a rest, S ts a rest → T ts a rest) :
    Completes p T :=
  fun _ _ _ he hp hi => (h he hp hi).mono fun _ _ _ hS => hST _ _ _ hS

/-- A parse that never wants more tokens. -/
theorem of_never (h : ∀ {c e c'}, p c = .error e c' → e.tag ≠ .incompleteInput) :
    Completes p S :=
  fun _ _ _ _ hp hi => absurd hi (h hp)

theorem pure (a : α) : Completes (Pure.pure a) S :=
  of_never fun hp => by cases hp

theorem throw {e : SyntaxError} (h : e.tag ≠ .incompleteInput) :
    Completes (MonadExcept.throw e : Parse α) S :=
  of_never fun hp => by
    cases hp
    exact h

/-- **One part after another.** The second can be spelled out behind a mark `k` that ends whatever
value the first may end with. -/
theorem bind {f : α → Parse β} {T : α → Span β} {k : Kind} (hp : Completes p S) (hr : Sound p S)
    (hx : Extends S) (hf : ∀ a, Completes (f a) (T a))
    (hk : k ≠ .symbol ∧ k ≠ .endOfInput ∧ k ≠ .delimiter .dot)
    (hT : ∀ a, Spells ((T a).after [.mark k])) :
    Completes (p >>= f) (fun ts b rest => ∃ a ms, S ts a ms ∧ T a ms b rest) := by
  intro c e c' he h hi
  rcases bind_eq_error.mp h with h₁ | ⟨a, c₁, h₁, h₂⟩
  · exact Spells.bind hk (hp he h₁ hi) hT
  · obtain ⟨hsuf, hS⟩ := hr he h₁
    by_cases hnil : c₁.rest = []
    · -- the input ends between the two parts
      obtain ⟨us, hus, b, hb⟩ := hT a
      refine ⟨.mark k :: us, by simp [hus, hk], b, fun tail ht => ?_⟩
      refine ⟨a, .mark k :: (us ++ tail), ?_, hb tail ht⟩
      rw [hnil] at hS
      exact hx hS _ fun _ => by simp [hk]
    · -- the first part leaves what has been read of the second
      obtain ⟨us, hus, b, hb⟩ := hf a (he.of_suffix hsuf) h₂ hi
      refine ⟨us, hus, b, fun tail ht => ⟨a, terminals c₁.rest ++ (us ++ tail), ?_, hb tail ht⟩⟩
      exact hx hS _ fun hno => absurd (List.map_eq_nil_iff.mp hno) hnil

/-- A value made of what was read. -/
theorem map (f : α → β) (hp : Completes p S) :
    Completes (p >>= fun a => Pure.pure (f a)) (fun ts b rest => ∃ a, S ts a rest ∧ b = f a) := by
  intro c e c' he h hi
  rcases bind_eq_error.mp h with h₁ | ⟨a, c₁, -, h₂⟩
  · obtain ⟨us, hus, a, hS⟩ := hp he h₁ hi
    exact ⟨us, hus, f a, fun tail ht => ⟨a, hS tail ht, rfl⟩⟩
  · cases h₂

/-- A required token that is no symbol, and what comes after it. -/
theorem expect {k : Kind} (hk : k ≠ .symbol ∧ k ≠ .endOfInput) (what : String)
    {f : Token → Parse α} (hf : ∀ t, Completes (f t) S) (hS : Spells S) :
    Completes (Parse.expect k what >>= f)
      (fun ts a rest => ∃ ms, ts = .mark k :: ms ∧ S ms a rest) := by
  rintro ⟨rd, ts, d⟩ e c' he h hi
  cases ts with
  | nil => exact hS.mark hk
  | cons u ts =>
    obtain ⟨hu, hts⟩ := endFree_cons.mp he
    by_cases hku : u.kind = k
    · rw [bind_of_ok (expect_cons_of_eq hu hku what)] at h
      obtain ⟨us, hus, a, ha⟩ := hf u (c := ⟨u :: rd, ts, d⟩) hts h hi
      refine ⟨us, hus, a, fun tail ht => ⟨terminals ts ++ (us ++ tail), ?_, ha tail ht⟩⟩
      rw [terminals_cons, (Token.terminal_eq_mark hk.1).mpr hku]
      rfl
    · rw [bind_of_error (expect_cons_of_ne hu hku what)] at h
      cases h
      cases hi

/-- A required token between two parts. -/
theorem between {k : Kind} {q : α → Parse β} {T : α → Span β} (hp : Completes p S) (hr : Sound p S)
    (hx : Extends S) (hk : k ≠ .symbol ∧ k ≠ .endOfInput ∧ k ≠ .delimiter .dot)
    (what : α → String) (hq : ∀ a, Completes (q a) (T a)) (hT : ∀ a, Spells (T a)) :
    Completes (p >>= fun a => Parse.expect k (what a) >>= fun _ => q a)
      (fun ts b rest => ∃ a ms, S ts a (.mark k :: ms) ∧ T a ms b rest) := by
  have hafter : ∀ a, Spells (Span.after [.mark k]
      fun ts b rest => ∃ ms, ts = .mark k :: ms ∧ T a ms b rest) := by
    intro a
    obtain ⟨us, hus, b, hb⟩ := hT a
    exact ⟨us, hus, b, fun tail ht => ⟨us ++ tail, rfl, hb tail ht⟩⟩
  have hexpect := fun a => expect ⟨hk.1, hk.2.1⟩ (what a) (fun _ => hq a) (hT a)
  refine (hp.bind hr hx hexpect hk hafter).mono ?_
  rintro ts b rest ⟨a, _, ha, ms, rfl, hb⟩
  exact ⟨a, ms, ha, hb⟩

/-- A name that is missing is spelled out. -/
theorem expectSymbol (tag : SyntaxError.Tag) (htag : tag ≠ .incompleteInput) (message : String) :
    Completes (Parse.expectSymbol tag message) NameSpan := by
  rintro ⟨rd, ts, d⟩ e c' he h hi
  cases ts with
  | nil => exact spells_name
  | cons u ts =>
    obtain ⟨hu, hts⟩ := endFree_cons.mp he
    by_cases hsym : u.kind = .symbol
    · rw [expectSymbol_cons_of_eq hsym] at h
      cases h
    · rw [expectSymbol_cons_of_ne hu hsym] at h
      cases h
      exact absurd hi htag

/-- Passing over a token. -/
theorem skip (hp : Completes p S) :
    Completes (Parse.skip >>= fun _ => p) (fun ts a rest => S ts.tail a rest) := by
  rintro ⟨rd, ts, d⟩ e c' he h hi
  cases ts with
  | nil =>
    -- there is no token to pass over, so any one may stand here
    obtain ⟨us, hus, a, hS⟩ := hp (c := ⟨rd, [], d⟩) he h hi
    exact ⟨.symbol "x" :: us, by simp [hus], a, fun tail ht => hS tail ht⟩
  | cons u ts =>
    obtain ⟨hu, hts⟩ := endFree_cons.mp he
    rw [skip_bind_apply, Cursor.advance_cons hu] at h
    exact hp (c := ⟨u :: rd, ts, d⟩) hts h hi

/-- A choice by the next token, which neither side reads here. -/
theorem sees {k : Kind} (hk : k ≠ .symbol) (hp : Completes p S) (hq : Completes q T) :
    Completes (Parse.sees k >>= fun b => if b = true then p else q)
      (fun ts a rest => (StartsWith k ts ∧ S ts a rest) ∨ T ts a rest) := by
  intro c e c' he h hi
  rw [sees_bind_apply] at h
  by_cases hs : c.sees k = true
  · rw [if_pos hs] at h
    obtain ⟨us, hus, a, hS⟩ := hp he h hi
    refine ⟨us, hus, a, fun tail ht => .inl ⟨?_, hS tail ht⟩⟩
    obtain ⟨ms, hms⟩ := (Cursor.sees_iff he hk).mp hs
    exact ⟨ms ++ (us ++ tail), congrArg (· ++ (us ++ tail)) hms⟩
  · rw [if_neg hs] at h
    exact (hq he h hi).mono fun _ _ _ hT => .inr hT

/-- A comma that may be left out. -/
theorem skipComma (hp : Completes p S) :
    Completes (Parse.skipComma >>= fun _ => p) (CommaSpan S) := by
  rw [skipComma_bind]
  refine (hp.skip.sees (k := .delimiter .comma) (by simp) hp).mono ?_
  rintro ts a rest (⟨⟨us, rfl⟩, h⟩ | h)
  · exact .comma h
  · exact .plain h

/-- **Looking at a token that has to be there**, and reading on as it asks. -/
theorem requireMore {f : Token → Parse α} {S : Terminal → Span α} (what : String)
    (h : ∀ t, Completes (f t) (S t.terminal))
    (hS : Spells fun ts a rest => ∃ w us, ts = w :: us ∧ S w ts a rest) :
    Completes (Parse.requireMore what >>= f)
      (fun ts a rest => ∃ w us, ts = w :: us ∧ S w ts a rest) := by
  rintro ⟨rd, ts, d⟩ e c' he hp hi
  cases ts with
  | nil => exact hS
  | cons u ts =>
    rw [bind_of_ok (requireMore_cons (endFree_cons.mp he).1 what)] at hp
    exact (h u he hp hi).mono fun us a rest hus => ⟨u.terminal, terminals ts ++ us, rfl, hus⟩

/-- A body counts as one deeper while it is read, which the tokens do not show. -/
theorem deeper (h : Completes p S) : Completes (Parse.deeper p) S := by
  intro c e c' he hp hi
  obtain ⟨c₁, h₁, -⟩ := deeper_eq_error.mp hp
  exact h (c := { c with depth := c.depth + 1 }) he h₁ hi

end Completes

/-! ## Repetition -/

/-- Where a step wants more tokens there is nothing left, or an item that can be completed. -/
def CompletesItem (step : Parse (Option α)) (X : Span α) : Prop :=
  ∀ ⦃c e c'⦄, EndFree c.rest → step c = .error e c' → e.tag = .incompleteInput →
    c.rest = [] ∨ Spells (X.after (terminals c.rest))

/-- One item, unless the list ends here. -/
theorem Completes.item {k : Kind} {p : Parse α} {X : Span α} (what : String) (hp : Completes p X) :
    CompletesItem (Parse.sees k >>= fun b => if b = true then Pure.pure none else
      Parse.requireMore what >>= fun _ => p >>= fun a => Pure.pure (some a)) X := by
  rintro ⟨rd, ts, d⟩ e c' he h hi
  rw [sees_bind_apply] at h
  by_cases hs : Cursor.sees ⟨rd, ts, d⟩ k = true
  · rw [if_pos hs] at h
    cases h
  · rw [if_neg hs] at h
    cases ts with
    | nil => exact .inl rfl
    | cons u ts =>
      rw [bind_of_ok (requireMore_cons (endFree_cons.mp he).1 what)] at h
      rcases bind_eq_error.mp h with h₁ | ⟨a, c₁, -, h₂⟩
      · exact .inr (hp he h₁ hi)
      · cases h₂

/-- **Repetition** is completed by its last item, or needs nothing. -/
theorem Completes.many {step : Parse (Option α)} {S : Span (Option α)} {X : Span α}
    (hstep : CompletesItem step X) (hr : Sound step S)
    (hS : ∀ {ts a rest}, S ts (some a) rest → X ts a rest) (hx : Extends X)
    (shorter : ∀ {ts a rest}, X ts a rest → rest.length < ts.length) :
    Completes (Parse.many step) (ManySpan X) := by
  intro c e c' he h hi
  -- the induction is on the tokens left, of which every item reads one
  induction hn : c.rest.length using Nat.strongRecOn generalizing c with
  | ind n ih =>
    subst hn
    cases hs : step c with
    | error e' c₁ =>
      rw [many_of_error hs] at h
      cases h
      -- the list may end where its step wants more tokens, unless an item has begun
      rcases hstep he hs hi with hnil | ⟨us, hus, a, ha⟩
      · refine ⟨[], by simp, [], fun tail _ => ?_⟩
        rw [hnil]
        exact .nil
      · exact ⟨us, hus, [a], fun tail ht => .cons (ha tail ht) .nil⟩
    | ok o c₁ =>
      obtain ⟨hsuf, hspan⟩ := hr he hs
      cases o with
      | none =>
        rw [many_of_none hs] at h
        cases h
      | some a =>
        have hX := hS hspan
        have hlt : c₁.rest.length < c.rest.length := by simpa using shorter hX
        rw [many_of_some hs hlt] at h
        rcases bind_eq_error.mp h with h₁ | ⟨as, c₂, -, h₂⟩
        · by_cases hnil : c₁.rest = []
          · rw [hnil] at hX
            exact ⟨[], by simp, [a], fun tail ht => .cons (hx hX tail fun _ => ht) .nil⟩
          · obtain ⟨us, hus, as, has⟩ := ih _ hlt (he.of_suffix hsuf) h₁ rfl
            refine ⟨us, hus, a :: as, fun tail ht => .cons (hx hX _ fun hno => ?_) (has tail ht)⟩
            exact absurd (List.map_eq_nil_iff.mp hno) hnil
        · cases h₂

/-- Passing over the token that a repetition stopped at, or would have stopped at. -/
theorem Completes.upTo {k : Kind} (hk : k ≠ .symbol ∧ k ≠ .endOfInput ∧ k ≠ .delimiter .dot)
    {p : Parse α} {q : α → Parse β} {S : Span α} {T : α → Span β} (hp : Completes p S)
    (hr : Sound p fun ts a rest => S ts a rest ∧ StartsWith k rest) (hx : Extends S)
    (hq : ∀ a, Completes (q a) (T a)) (hT : ∀ a, Spells (T a)) :
    Completes (p >>= fun a => Parse.skip >>= fun _ => q a)
      (fun ts b rest => ∃ a ms, S ts a (.mark k :: ms) ∧ T a ms b rest) := by
  intro c e c' he h hi
  rcases bind_eq_error.mp h with h₁ | ⟨a, c₁, h₁, h₂⟩
  · exact Spells.between hk (hp he h₁ hi) hT
  · obtain ⟨hsuf, hspan, ms, hms⟩ := hr he h₁
    obtain ⟨rd, ts, d⟩ := c₁
    cases ts with
    | nil => cases hms
    | cons u ts =>
      obtain ⟨hu, hts⟩ := endFree_cons.mp (he.of_suffix hsuf)
      rw [terminals_cons] at hms
      injection hms with hmark hrest
      rw [skip_bind_apply, Cursor.advance_cons hu] at h₂
      obtain ⟨us, hus, b, hb⟩ := hq a (c := ⟨u :: rd, ts, d⟩) hts h₂ hi
      refine ⟨us, hus, b, fun tail ht => ⟨a, terminals ts ++ (us ++ tail), ?_, hb tail ht⟩⟩
      have hmore := hx hspan (us ++ tail) (by simp)
      rwa [terminals_cons, hmark] at hmore

end Parse

end BlockLang
