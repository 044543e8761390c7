import BlockLang.Proofs.Grammar.Steps

/-!
# Recognition

A parse recognises a span when it succeeds exactly on what the span relates: whatever it returns
spans the tokens it has read, and whatever spans the tokens in front of it, it returns. The second
half may ask something of what follows, since a parse that repeats goes on for as long as it can
where the grammar may stop at any point.

Each way of putting parses together has its span, so a parse is shown to recognise its rule of the
grammar by following its own text.
-/

namespace BlockLang.Parse

variable {α β : Type}

/-- No condition on what follows. -/
def Anything (_ : List Terminal) : Prop := True

/-- **Recognition**: the parse `p` succeeds exactly on what `S` spans, where `F` is asked of the
terminals that follow. -/
structure Recognizes (p : Parse α) (S : Span α) (F : List Terminal → Prop) : Prop where
  sound {c c' a} : EndFree c.rest → p c = .ok a c' →
    c'.rest <:+ c.rest ∧ S (terminals c.rest) a (terminals c'.rest)
  complete {c a rest} : EndFree c.rest → S (terminals c.rest) a rest → F rest →
    ∃ c', p c = .ok a c' ∧ terminals c'.rest = rest

namespace Recognizes

variable {p q : Parse α} {S T : Span α} {F G : List Terminal → Prop}

/-- A recognised span has one tree and one rest, given what follows. -/
theorem unique (h : Recognizes p S F) {ts : List Token} (he : EndFree ts) {a b : α}
    {rest more : List Terminal} (ha : S (terminals ts) a rest) (hF : F rest)
    (hb : S (terminals ts) b more) (hG : F more) : a = b ∧ rest = more := by
  obtain ⟨c₁, h₁, rfl⟩ := h.complete (c := ⟨[], ts, 0⟩) he ha hF
  obtain ⟨c₂, h₂, rfl⟩ := h.complete (c := ⟨[], ts, 0⟩) he hb hG
  rw [h₁] at h₂
  cases h₂
  exact ⟨rfl, rfl⟩

/-- Equivalent spans are recognised alike. -/
theorem congr (h : Recognizes p S F) (hST : ∀ ts a rest, S ts a rest ↔ T ts a rest) :
    Recognizes p T F where
  sound he hp := by
    obtain ⟨hs, hS⟩ := h.sound he hp
    exact ⟨hs, (hST _ _ _).mp hS⟩
  complete he hT hF := h.complete he ((hST _ _ _).mpr hT) hF

/-- More may be asked of what follows. -/
theorem follow (h : Recognizes p S F) (hGF : ∀ rest, G rest → F rest) : Recognizes p S G where
  sound := h.sound
  complete he hS hG := h.complete he hS (hGF _ hG)

/-- Where a parse stops can be asked of what follows. -/
theorem asking (h : Recognizes p (fun ts a rest => S ts a rest ∧ G rest) F) :
    Recognizes p S (fun rest => G rest ∧ F rest) where
  sound he hp := by
    obtain ⟨hs, hS, -⟩ := h.sound he hp
    exact ⟨hs, hS⟩
  complete he hS hF := h.complete he ⟨hS, hF.1⟩ hF.2

theorem pure (a : α) : Recognizes (pure a) (fun ts b rest => b = a ∧ rest = ts) F where
  sound := by
    rintro c c' b he hp
    cases hp
    exact ⟨List.suffix_rfl, rfl, rfl⟩
  complete := by
    rintro c b rest he ⟨rfl, rfl⟩ -
    exact ⟨c, rfl, rfl⟩

/-- **One parse after another.** What the second spans has to satisfy what the first asks of its
rest. -/
theorem bind {f : α → Parse β} {T : α → Span β} (hp : Recognizes p S F)
    (hf : ∀ a, Recognizes (f a) (T a) G)
    (hFG : ∀ {a b ms rest}, T a ms b rest → G rest → F ms) :
    Recognizes (p >>= f) (fun ts b rest => ∃ a ms, S ts a ms ∧ T a ms b rest) G where
  sound := by
    intro c c' b he h
    obtain ⟨a, c₁, h₁, h₂⟩ := bind_eq_ok.mp h
    obtain ⟨hs₁, hS⟩ := hp.sound he h₁
    obtain ⟨hs₂, hT⟩ := (hf a).sound (he.of_suffix hs₁) h₂
    exact ⟨hs₂.trans hs₁, a, _, hS, hT⟩
  complete := by
    rintro c b rest he ⟨a, ms, hS, hT⟩ hG
    obtain ⟨c₁, h₁, rfl⟩ := hp.complete he hS (hFG hT hG)
    obtain ⟨hs₁, -⟩ := hp.sound he h₁
    obtain ⟨c₂, h₂, hr⟩ := (hf a).complete (he.of_suffix hs₁) hT hG
    exact ⟨c₂, by rw [bind_of_ok h₁, h₂], hr⟩

/-- A value made of what was read. -/
theorem map (f : α → β) (hp : Recognizes p S F) :
    Recognizes (p >>= fun a => Pure.pure (f a))
      (fun ts b rest => ∃ a, S ts a rest ∧ b = f a) F := by
  refine (hp.bind (G := F) (fun a => pure (f a)) ?_).congr ?_
  · rintro a b ms rest ⟨-, rfl⟩ h
    exact h
  · rintro ts b rest
    constructor
    · rintro ⟨a, ms, h, rfl, rfl⟩
      exact ⟨a, h, rfl⟩
    · rintro ⟨a, h, rfl⟩
      exact ⟨a, _, h, rfl, rfl⟩

/-- A required token that is no symbol, and what comes after it. -/
theorem expect {k : Kind} (hk : k ≠ .symbol) (what : String) (hp : Recognizes p S F) :
    Recognizes (Parse.expect k what >>= fun _ => p)
      (fun ts a rest => ∃ ms, ts = .mark k :: ms ∧ S ms a rest) F where
  sound := by
    rintro ⟨rd, ts, d⟩ c' a he h
    obtain ⟨t, c₁, h₁, h₂⟩ := bind_eq_ok.mp h
    cases ts with
    | nil => simp at h₁
    | cons u ts =>
      obtain ⟨hu, hts⟩ := endFree_cons.mp he
      by_cases hku : u.kind = k
      · rw [expect_cons_of_eq hu hku] at h₁
        cases h₁
        obtain ⟨hs, hS⟩ := hp.sound hts h₂
        exact ⟨hs.trans (List.suffix_cons _ _), _,
          by rw [terminals_cons, (Token.terminal_eq_mark hk).mpr hku], hS⟩
      · rw [expect_cons_of_ne hu hku] at h₁
        cases h₁
  complete := by
    rintro ⟨rd, ts, d⟩ a rest he ⟨ms, hts, hS⟩ hF
    cases ts with
    | nil => simp at hts
    | cons u ts =>
      obtain ⟨hu, hts'⟩ := endFree_cons.mp he
      rw [terminals_cons] at hts
      injection hts with h₁ h₂
      subst h₂
      have hku := (Token.terminal_eq_mark hk).mp h₁
      obtain ⟨c', h, hr⟩ := hp.complete (c := ⟨u :: rd, ts, d⟩) hts' hS hF
      exact ⟨c', by rw [bind_of_ok (expect_cons_of_eq hu hku _), h], hr⟩

/-- A name is any symbol. -/
theorem expectSymbol (tag : SyntaxError.Tag) (message : String) :
    Recognizes (Parse.expectSymbol tag message) NameSpan Anything where
  sound := by
    rintro ⟨rd, ts, d⟩ c' a he h
    cases ts with
    | nil => simp at h
    | cons u ts =>
      obtain ⟨hu, hts⟩ := endFree_cons.mp he
      by_cases hsym : u.kind = .symbol
      · rw [expectSymbol_cons_of_eq hsym] at h
        cases h
        refine ⟨List.suffix_cons _ _, ?_⟩
        rw [terminals_cons, Token.terminal_of_symbol hsym]
        exact .symbol
      · rw [expectSymbol_cons_of_ne hu hsym] at h
        cases h
  complete := by
    rintro ⟨rd, ts, d⟩ a rest he h -
    cases ts with
    | nil => cases h
    | cons u ts =>
      rw [terminals_cons] at h
      generalize hu : u.terminal = w at h
      cases h with
      | symbol =>
        obtain ⟨hsym, rfl⟩ := Token.terminal_eq_symbol.mp hu
        exact ⟨_, expectSymbol_cons_of_eq hsym tag message, rfl⟩

/-- Passing over a token. -/
theorem skip (hp : Recognizes p S F) :
    Recognizes (Parse.skip >>= fun _ => p) (fun ts a rest => S ts.tail a rest) F where
  sound := by
    rintro ⟨rd, ts, d⟩ c' a he h
    cases ts with
    | nil => exact hp.sound he h
    | cons u ts =>
      obtain ⟨hu, hts⟩ := endFree_cons.mp he
      rw [skip_bind_apply, Cursor.advance_cons hu] at h
      obtain ⟨hs, hS⟩ := hp.sound hts h
      exact ⟨hs.trans (List.suffix_cons _ _), hS⟩
  complete := by
    rintro ⟨rd, ts, d⟩ a rest he hS hF
    cases ts with
    | nil => exact hp.complete he hS hF
    | cons u ts =>
      obtain ⟨hu, hts⟩ := endFree_cons.mp he
      rw [skip_bind_apply, Cursor.advance_cons hu]
      exact hp.complete (c := ⟨u :: rd, ts, d⟩) hts hS hF

/-- **A choice by the next token**, which neither side reads here. -/
theorem sees {k : Kind} (hk : k ≠ .symbol) (hp : Recognizes p S F) (hq : Recognizes q T F) :
    Recognizes (Parse.sees k >>= fun b => if b = true then p else q)
      (fun ts a rest => (StartsWith k ts ∧ S ts a rest) ∨ (¬ StartsWith k ts ∧ T ts a rest)) F := by
  constructor
  · intro c c' a he h
    rw [sees_bind_apply] at h
    by_cases hs : c.sees k = true
    · rw [if_pos hs] at h
      obtain ⟨h₁, h₂⟩ := hp.sound he h
      exact ⟨h₁, .inl ⟨(Cursor.sees_iff he hk).mp hs, h₂⟩⟩
    · rw [if_neg hs] at h
      obtain ⟨h₁, h₂⟩ := hq.sound he h
      exact ⟨h₁, .inr ⟨mt (Cursor.sees_iff he hk).mpr hs, h₂⟩⟩
  · rintro c a rest he (⟨hs, h⟩ | ⟨hs, h⟩) hF
    · rw [sees_bind_apply, if_pos ((Cursor.sees_iff he hk).mpr hs)]
      exact hp.complete he h hF
    · rw [sees_bind_apply, if_neg (mt (Cursor.sees_iff he hk).mp hs)]
      exact hq.complete he h hF

/-- **Looking at a token that has to be there**, and reading on as it asks. -/
theorem requireMore {f : Token → Parse α} {S : Terminal → Span α} (what : String)
    (h : ∀ t, Recognizes (f t) (S t.terminal) F) :
    Recognizes (Parse.requireMore what >>= f)
      (fun ts a rest => ∃ w us, ts = w :: us ∧ S w ts a rest) F where
  sound := by
    rintro ⟨rd, ts, d⟩ c' a he hp
    cases ts with
    | nil => cases hp
    | cons u ts =>
      rw [bind_of_ok (requireMore_cons (endFree_cons.mp he).1 what)] at hp
      obtain ⟨hs, hS⟩ := (h u).sound he hp
      exact ⟨hs, _, _, rfl, hS⟩
  complete := by
    rintro ⟨rd, ts, d⟩ a rest he ⟨w, us, hts, hS⟩ hF
    cases ts with
    | nil => cases hts
    | cons u ts =>
      cases hts
      rw [bind_of_ok (requireMore_cons (endFree_cons.mp he).1 what)]
      exact (h u).complete he hS hF

/-- A body counts as one deeper while it is read, which the tokens do not show. -/
theorem deeper (h : Recognizes p S F) : Recognizes (Parse.deeper p) S F where
  sound := by
    intro c c' a he hp
    obtain ⟨c₁, h₁, rfl⟩ := deeper_eq_ok.mp hp
    obtain ⟨hs, hS⟩ := h.sound (c := { c with depth := c.depth + 1 }) he h₁
    exact ⟨hs, hS⟩
  complete := by
    intro c a rest he hS hF
    obtain ⟨c₁, h₁, hr⟩ := h.complete (c := { c with depth := c.depth + 1 }) he hS hF
    exact ⟨_, deeper_eq_ok.mpr ⟨c₁, h₁, rfl⟩, hr⟩

/-- A comma that may be left out. -/
theorem skipComma (hp : Recognizes p S F)
    (hS : ∀ {ts a rest}, S ts a rest → ¬ StartsWith (.delimiter .comma) ts) :
    Recognizes (Parse.skipComma >>= fun _ => p) (CommaSpan S) F := by
  rw [skipComma_bind]
  refine (hp.skip.sees (k := .delimiter .comma) (by simp) hp).congr fun ts a rest => ?_
  constructor
  · rintro (⟨⟨us, rfl⟩, h⟩ | ⟨-, h⟩)
    · exact .comma h
    · exact .plain h
  · rintro (h | h)
    · exact .inr ⟨hS h, h⟩
    · exact .inl ⟨⟨_, rfl⟩, h⟩

end Recognizes

/-- A failure spans nothing. -/
theorem recognizes_throw {F : List Terminal → Prop} (e : SyntaxError) :
    Recognizes (throw e : Parse α) (fun _ _ _ => False) F where
  sound _ h := by cases h
  complete _ h _ := h.elim

/-! ## Repetition -/

/-- A step's span, repeated until the step finds nothing. -/
inductive StepsSpan (S : Span (Option α)) : Span (List α)
  | stop {ts rest} : S ts none rest → StepsSpan S ts [] rest
  | more {ts ms rest a as} : S ts (some a) ms → StepsSpan S ms as rest →
      StepsSpan S ts (a :: as) rest

/-- **Repetition** recognises the repeated span of a step that reads a token whenever it finds
something. -/
theorem Recognizes.many {step : Parse (Option α)} {S : Span (Option α)}
    {F G : List Terminal → Prop} (h : Recognizes step S F)
    (shorter : ∀ {ts a rest}, S ts (some a) rest → rest.length < ts.length)
    (more : ∀ {ts as rest}, StepsSpan S ts as rest → G rest → F ts)
    (stop : ∀ {ts rest}, S ts none rest → G rest → F rest) :
    Recognizes (many step) (StepsSpan S) G where
  sound := by
    intro c c' as he hp
    -- the induction is on the tokens left, of which every item reads one
    induction hn : c.rest.length using Nat.strongRecOn generalizing c as with
    | ind n ih =>
      subst hn
      cases hs : step c with
      | error e c₁ => rw [many_of_error hs] at hp; cases hp
      | ok o c₁ =>
        obtain ⟨hsuf, hS⟩ := h.sound he hs
        cases o with
        | none =>
          rw [many_of_none hs] at hp
          cases hp
          exact ⟨hsuf, .stop hS⟩
        | some a =>
          have hlt : c₁.rest.length < c.rest.length := by simpa using shorter hS
          rw [many_of_some hs hlt] at hp
          obtain ⟨as', c₂, h₁, h₂⟩ := bind_eq_ok.mp hp
          cases h₂
          obtain ⟨hsuf', hT⟩ := ih _ hlt (he.of_suffix hsuf) h₁ rfl
          exact ⟨hsuf'.trans hsuf, .more hS hT⟩
  complete := by
    intro c as rest he hS hG
    -- here the steps are given, and each is taken since what follows it is what the step asks
    generalize hts : terminals c.rest = ts at hS
    induction hS generalizing c with
    | stop hS =>
      subst hts
      obtain ⟨c', h', hr⟩ := h.complete he hS (stop hS hG)
      exact ⟨c', many_of_none h', hr⟩
    | more hS hT ih =>
      subst hts
      have hlt := shorter hS
      obtain ⟨c₁, h₁, rfl⟩ := h.complete he hS (more hT hG)
      obtain ⟨hsuf, -⟩ := h.sound he h₁
      obtain ⟨c₂, h₂, hr⟩ := ih (he.of_suffix hsuf) hG rfl
      refine ⟨c₂, ?_, hr⟩
      rw [many_of_some h₁ (by simpa using hlt), bind_of_ok h₂, pure_apply]

/-- The span of a step that finds nothing, and reads nothing, exactly where `Stop` holds. -/
inductive UntilSpan (Stop : List Terminal → Prop) (X : Span α) : Span (Option α)
  | stop {ts} : Stop ts → UntilSpan Stop X ts none ts
  | item {ts rest a} : ¬ Stop ts → X ts a rest → UntilSpan Stop X ts (some a) rest

/-- Such a step repeated finds all items up to there. -/
theorem stepsSpan_until {Stop : List Terminal → Prop} {X : Span α}
    (hX : ∀ ts a rest, X ts a rest → ¬ Stop ts) {ts rest : List Terminal} {as : List α} :
    StepsSpan (UntilSpan Stop X) ts as rest ↔ ManySpan X ts as rest ∧ Stop rest := by
  constructor
  · intro h
    induction h with
    | stop h =>
      cases h with
      | stop h => exact ⟨.nil, h⟩
    | more h _ ih =>
      cases h with
      | item _ h => exact ⟨.cons h ih.1, ih.2⟩
  · rintro ⟨h, hs⟩
    induction h with
    | nil => exact .stop (.stop hs)
    | cons h _ ih => exact .more (.item (hX _ _ _ h) h) (ih hs)

/-- **Repetition up to a stop**: the items up to the first place where `Stop` holds. What the item
asks of its rest has to hold at the stop and in front of every item. -/
theorem Recognizes.manyUntil {step : Parse (Option α)} {Stop F G : List Terminal → Prop}
    {X : Span α} (h : Recognizes step (UntilSpan Stop X) F)
    (hX : ∀ {ts a rest}, X ts a rest → ¬ Stop ts ∧ F ts ∧ rest.length < ts.length)
    (hF : ∀ {ts}, Stop ts → G ts → F ts) :
    Recognizes (Parse.many step) (fun ts as rest => ManySpan X ts as rest ∧ Stop rest) G := by
  have hstop : ∀ ts a rest, X ts a rest → ¬ Stop ts := fun _ _ _ h => (hX h).1
  refine (h.many (G := G) ?_ ?_ ?_).congr fun ts as rest => stepsSpan_until hstop
  · rintro ts a rest (_ | ⟨-, h⟩)
    exact (hX h).2.2
  · rintro ts as rest h hG
    cases h with
    | stop h =>
      cases h with
      | stop h => exact hF h hG
    | more h _ =>
      cases h with
      | item _ h => exact (hX h).2.1
  · rintro ts rest (h | _) hG
    exact hF h hG

/-- A result of a repetition, with `as` found in front of it. -/
def foundBehind (as : List α) :
    EStateM.Result SyntaxError Cursor (List α) → EStateM.Result SyntaxError Cursor (List α)
  | .ok more c => .ok (as ++ more) c
  | .error e c => .error e c

/-- **The items in front of a place** are found, and the repetition goes on from there. -/
theorem Recognizes.many_items {step : Parse (Option α)} {Stop : List Terminal → Prop} {X : Span α}
    (h : Recognizes step (UntilSpan Stop X) Anything)
    (hX : ∀ {ts a rest}, X ts a rest → ¬ Stop ts ∧ rest.length < ts.length) {c : Cursor}
    {as : List α} {ms : List Terminal} (he : EndFree c.rest)
    (hspan : ManySpan X (terminals c.rest) as ms) :
    ∃ c' : Cursor, c'.rest <:+ c.rest ∧ terminals c'.rest = ms ∧
      Parse.many step c = foundBehind as (Parse.many step c') := by
  generalize hts : terminals c.rest = ts at hspan
  induction hspan generalizing c with
  | nil =>
    refine ⟨c, List.suffix_rfl, hts, ?_⟩
    cases Parse.many step c <;> rfl
  | @cons ts ms rest a as ha _ ih =>
    subst hts
    obtain ⟨hstop, hlt⟩ := hX ha
    obtain ⟨c₁, h₁, rfl⟩ := h.complete he (.item hstop ha) trivial
    obtain ⟨hsuf, -⟩ := h.sound he h₁
    obtain ⟨c', hsuf', hms, hmany⟩ := ih (he.of_suffix hsuf) rfl
    refine ⟨c', hsuf'.trans hsuf, hms, ?_⟩
    have hshorter : c₁.rest.length < c.rest.length := by simpa using hlt
    rw [Parse.many, h₁]
    simp only [hshorter, if_true, hmany]
    cases Parse.many step c' <;> rfl

/-- One item, unless the list ends here. -/
theorem Recognizes.item {k : Kind} (hk : k ≠ .symbol) {p : Parse α} {X : Span α}
    {F : List Terminal → Prop} (what : String) (hp : Recognizes p X F)
    (hX : ∀ {ts a rest}, X ts a rest → ∃ w us, ts = w :: us ∧ w ≠ .mark k) :
    Recognizes (Parse.sees k >>= fun b => if b = true then Pure.pure none else
        Parse.requireMore what >>= fun _ => p >>= fun a => Pure.pure (some a))
      (UntilSpan (StartsWith k) X) F := by
  refine ((Recognizes.pure none).sees hk
    (Recognizes.requireMore (S := fun _ => _) what fun _ => hp.map some)).congr fun ts o rest => ?_
  constructor
  · rintro (⟨hs, rfl, rfl⟩ | ⟨hs, w, us, rfl, a, h, rfl⟩)
    · exact .stop hs
    · exact .item hs h
  · rintro (hs | ⟨hs, h⟩)
    · exact .inl ⟨hs, rfl, rfl⟩
    · obtain ⟨w, us, rfl, -⟩ := hX h
      exact .inr ⟨hs, w, us, rfl, _, h, rfl⟩

/-- What stops in front of a token passes over it and reads on. -/
theorem Recognizes.upTo {k : Kind} {p : Parse α} {q : α → Parse β} {S : Span α} {T : α → Span β}
    {F : List Terminal → Prop}
    (hp : Recognizes p (fun ts a rest => S ts a rest ∧ StartsWith k rest) Anything)
    (hq : ∀ a, Recognizes (q a) (T a) F) :
    Recognizes (p >>= fun a => Parse.skip >>= fun _ => q a)
      (fun ts b rest => ∃ a ms, S ts a (.mark k :: ms) ∧ T a ms b rest) F := by
  refine (hp.bind (fun a => (hq a).skip) fun _ _ => trivial).congr fun ts b rest => ?_
  constructor
  · rintro ⟨a, ms, ⟨h, us, rfl⟩, hT⟩
    exact ⟨a, us, h, hT⟩
  · rintro ⟨a, ms, h, hT⟩
    exact ⟨a, _, ⟨h, ms, rfl⟩, hT⟩

/-- A property of every item is a property of the list. -/
theorem manySpan_and {X : Span α} {P : α → Prop} {ts rest : List Terminal} {as : List α} :
    ManySpan (fun ts a rest => X ts a rest ∧ P a) ts as rest ↔
      ManySpan X ts as rest ∧ ∀ a ∈ as, P a := by
  constructor
  · intro h
    induction h with
    | nil => exact ⟨.nil, by simp⟩
    | cons h _ ih => exact ⟨.cons h.1 ih.1, List.forall_mem_cons.mpr ⟨h.2, ih.2⟩⟩
  · rintro ⟨h, hP⟩
    induction h with
    | nil => exact .nil
    | cons h _ ih =>
      rw [List.forall_mem_cons] at hP
      exact .cons ⟨h, hP.1⟩ (ih hP.2)

end BlockLang.Parse
