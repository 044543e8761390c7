import BlockLang.Proofs.Grammar.Steps

/-!
# One token ahead

A parse never looks further than one token behind what it has read, and never back. So what it does
is settled by the tokens it has read and the next one: other tokens behind that one change nothing.
An error is about the last token that was looked at, unless the input has ended there.

Two parses are compared rather than one with itself, since a program may be read again with a higher
limit for its bodies.
-/

namespace BlockLang

/-- The cursor behind the tokens `us`, in front of `ts`. -/
def Cursor.past (c : Cursor) (us ts : List Token) : Cursor := ⟨us.reverse ++ c.read, ts, c.depth⟩

@[simp] theorem Cursor.past_rest (c : Cursor) (us ts : List Token) : (c.past us ts).rest = ts := rfl

theorem Cursor.past_past (c : Cursor) (us vs ts ts' : List Token) :
    (c.past us ts).past vs ts' = c.past (us ++ vs) ts' := by
  simp [past]

/-- The error of an input that ended is marked as such. -/
theorem Cursor.incomplete_tag (c : Cursor) (message : String) :
    (c.incomplete message).tag = .incompleteInput := by
  unfold incomplete
  split <;> rfl

/-- The next token is the first one left, unless it is an end mark. -/
theorem Cursor.peek_of_head? {c : Cursor} {t : Token} (h : c.rest.head? = some t)
    (ht : t.kind ≠ .endOfInput) : c.peek = some t := by
  obtain ⟨rd, ts, d⟩ := c
  cases ts with
  | nil => cases h
  | cons u us =>
    obtain rfl : u = t := by simpa using h
    exact peek_cons ht

namespace Parse

variable {α β γ : Type} {Q : SyntaxError → Prop}

/-- The parse `q` reads the tokens `us` and returns `a`, whatever follows in place of what `c'` has
left, as long as the next token is the same. -/
structure Repeats (q : Parse α) (c : Cursor) (a : α) (c' : Cursor) (us : List Token) : Prop where
  rest : c.rest = us ++ c'.rest
  cursor : c' = c.past us c'.rest
  run {xs} : xs ≠ [] → xs.head? = c'.rest.head? →
    q { c with rest := us ++ xs } = .ok a (c.past us xs)

/-- The parse `q` fails with the error `e` about a token that is left, whatever follows it. -/
def RepeatsError (q : Parse α) (c : Cursor) (e : SyntaxError) : Prop :=
  ∃ us t post, c.rest = us ++ t :: post ∧ e.token = some t ∧
    ∀ xs, ∃ c', q { c with rest := us ++ t :: xs } = .error e c'

/-- **The parse `q` repeats what `p` does** when the tokens behind the next one are replaced: where
`p` succeeds, and where it fails with an error that `Q` accepts. -/
structure Steady (Q : SyntaxError → Prop) (p q : Parse α) : Prop where
  ok {c c' a} : EndFree c.rest → p c = .ok a c' → ∃ us, Repeats q c a c' us
  error {c c' e} : EndFree c.rest → p c = .error e c' → Q e → RepeatsError q c e

namespace Repeats

variable {q : Parse α} {r : Parse β} {c c₁ c' : Cursor} {a : α} {b : β} {us vs ys xs : List Token}

theorem endFree (h : Repeats q c a c₁ us) (he : EndFree c.rest) : EndFree c₁.rest :=
  he.of_suffix ⟨us, h.rest.symm⟩

/-- Where it stops, other tokens may follow. -/
theorem with_rest (h : Repeats q c a c₁ us) (zs : List Token) :
    { c₁ with rest := zs } = c.past us zs := by
  rw [h.cursor]
  rfl

/-- It stops in front of the same token, be it one that is read next or not. -/
theorem next (h : Repeats q c a c₁ us) (hrest : c₁.rest = vs ++ ys) (hne : xs ≠ [])
    (hx : xs.head? = ys.head?) :
    q { c with rest := us ++ (vs ++ xs) } = .ok a (c.past us (vs ++ xs)) := by
  refine h.run (by simp [hne]) ?_
  rw [hrest, List.head?_append, List.head?_append, hx]

/-- A parse that repeats what another did, behind one that did. -/
theorem trans {s : Parse γ} {d : γ} (h : Repeats q c a c₁ us) (h' : Repeats r c₁ b c' vs)
    (hs : ∀ {xs}, q { c with rest := us ++ (vs ++ xs) } = .ok a (c.past us (vs ++ xs)) →
      r (c.past us (vs ++ xs)) = .ok b (c.past (us ++ vs) xs) →
        s { c with rest := us ++ (vs ++ xs) } = .ok d (c.past (us ++ vs) xs)) :
    Repeats s c d c' (us ++ vs) where
  rest := by rw [List.append_assoc, ← h'.rest, h.rest]
  cursor := by
    rw [h'.cursor, h.cursor, Cursor.past_past]
    rfl
  run := by
    intro xs hne hx
    have hsecond := h'.run hne hx
    rw [h.with_rest] at hsecond
    rw [List.append_assoc]
    refine hs (h.next h'.rest hne hx) ?_
    rw [hsecond, h.cursor, Cursor.past_past]

/-- Where nothing is left no token can come in place of the next one, so anything repeats it. -/
theorem at_end {s : Parse α} (h : Repeats q c a c' us) (hnil : c.rest = []) :
    Repeats s c a c' us where
  rest := h.rest
  cursor := h.cursor
  run := by
    intro xs hne hx
    have hrest : us ++ c'.rest = [] := h.rest ▸ hnil
    rw [(List.append_eq_nil_iff.mp hrest).2, List.head?_nil, List.head?_eq_none_iff] at hx
    exact absurd hx hne

/-- What is repeated of a parse chosen by the next token is repeated of the parse that chooses: the
token stays the next one, being the first that is read or the one in front of which reading
stops. -/
theorem of_look {g : Option Token → Parse α} {t : Token} (hq : ∀ c, q c = g c.peek c)
    (ht : t.kind ≠ .endOfInput) (hnext : c.rest.head? = some t)
    (h : Repeats (g (some t)) c a c' us) : Repeats q c a c' us where
  rest := h.rest
  cursor := h.cursor
  run := by
    intro xs hne hx
    have hhead : (us ++ xs).head? = some t := by
      rw [List.head?_append, hx, ← List.head?_append, ← h.rest]
      exact hnext
    rw [hq, Cursor.peek_of_head? hhead ht]
    exact h.run hne hx

/-- An error behind a parse that repeats what another did. -/
theorem error {s : Parse γ} {e : SyntaxError} (h : Repeats q c a c₁ us) (h' : RepeatsError r c₁ e)
    (hs : ∀ {zs c'}, q { c with rest := us ++ zs } = .ok a (c.past us zs) →
      r (c.past us zs) = .error e c' → ∃ c'', s { c with rest := us ++ zs } = .error e c'') :
    RepeatsError s c e := by
  obtain ⟨vs, t, post, hvs, htok, hr⟩ := h'
  refine ⟨us ++ vs, t, post, by rw [List.append_assoc, ← hvs, h.rest], htok, fun xs => ?_⟩
  obtain ⟨c', hc'⟩ := hr xs
  rw [h.with_rest] at hc'
  rw [List.append_assoc]
  exact hs (h.next hvs (List.cons_ne_nil _ _) rfl) hc'

end Repeats

/-- An error is repeated by whatever fails alike. -/
theorem RepeatsError.of_run {q : Parse α} {r : Parse β} {c : Cursor} {e : SyntaxError}
    (h : RepeatsError q c e) (hr : ∀ {c c'}, q c = .error e c' → ∃ c'', r c = .error e c'') :
    RepeatsError r c e := by
  obtain ⟨us, t, post, hus, htok, hq⟩ := h
  refine ⟨us, t, post, hus, htok, fun xs => ?_⟩
  obtain ⟨c', hc'⟩ := hq xs
  exact hr hc'

/-- An error of a parse chosen by the next token is one of the parse that chooses. -/
theorem RepeatsError.of_look {q : Parse α} {g : Option Token → Parse α} {c : Cursor} {t : Token}
    {e : SyntaxError} (hq : ∀ c, q c = g c.peek c) (ht : t.kind ≠ .endOfInput)
    (hnext : c.rest.head? = some t) (h : RepeatsError (g (some t)) c e) : RepeatsError q c e := by
  obtain ⟨us, u, post, hus, htok, hg⟩ := h
  refine ⟨us, u, post, hus, htok, fun xs => ?_⟩
  -- the token that the error is about stays, so the next token does
  have hhead : (us ++ u :: xs).head? = some t := by
    have hsame : (u :: xs).head? = (u :: post).head? := rfl
    rw [List.head?_append, hsame, ← List.head?_append, ← hus]
    exact hnext
  rw [hq, Cursor.peek_of_head? hhead ht]
  exact hg xs

/-- Where the parse chosen by the next token refuses it, so does the parse that chooses. -/
theorem RepeatsError.of_refused {q : Parse α} {g : Option Token → Parse α} {rd ts : List Token}
    {d : Nat} {t : Token} {e : SyntaxError} (hq : ∀ c, q c = g c.peek c)
    (ht : t.kind ≠ .endOfInput) (htok : e.token = some t)
    (h : ∀ c, ∃ c', g (some t) c = .error e c') : RepeatsError q ⟨rd, t :: ts, d⟩ e := by
  refine ⟨[], t, ts, rfl, htok, fun xs => ?_⟩
  rw [hq, Cursor.peek_of_head? (t := t) rfl ht]
  exact h _

/-- An error that is repeated is about a token that is left, so there is one. -/
theorem RepeatsError.ne_nil {q : Parse α} {c : Cursor} {e : SyntaxError}
    (h : RepeatsError q c e) : c.rest ≠ [] := by
  obtain ⟨us, t, post, hus, -⟩ := h
  simp [hus]

/-- Both parses fail, wherever they stand, with one error about the token `t`. -/
def Refuses (t : Token) (p q : Parse α) : Prop :=
  ∃ e, e.token = some t ∧ ∀ c, (∃ c', p c = .error e c') ∧ ∃ c', q c = .error e c'

theorem refuses_throw (tag : SyntaxError.Tag) (message : String) (t : Token) :
    Refuses t (throw (.about tag message t) : Parse α) (throw (.about tag message t)) :=
  ⟨_, rfl, fun c => ⟨⟨c, rfl⟩, c, rfl⟩⟩

namespace Steady

/-- A parse that always fails with an error that does not count. -/
theorem of_error {p q : Parse α} (h : ∀ c, ∃ e c', p c = .error e c' ∧ ¬ Q e) :
    Steady Q p q where
  ok := by
    intro c c' a _ hp
    obtain ⟨e, c₁, he, -⟩ := h c
    rw [he] at hp
    cases hp
  error := by
    intro c c' e _ hp hQ
    obtain ⟨e', c₁, he, hno⟩ := h c
    rw [he] at hp
    cases hp
    exact absurd hQ hno

theorem pure (a : α) : Steady Q (Pure.pure a) (Pure.pure a) where
  ok := by
    intro c c' b _ hp
    cases hp
    exact ⟨[], rfl, rfl, fun _ _ => rfl⟩
  error := by
    intro c c' e _ hp
    cases hp

/-- **One parse after another.** -/
theorem bind {p q : Parse α} {f g : α → Parse β} (hp : Steady Q p q)
    (hf : ∀ a, Steady Q (f a) (g a)) : Steady Q (p >>= f) (q >>= g) where
  ok := by
    intro c c' b he h
    obtain ⟨a, c₁, h₁, h₂⟩ := bind_eq_ok.mp h
    obtain ⟨us, hus⟩ := hp.ok he h₁
    obtain ⟨vs, hvs⟩ := (hf a).ok (hus.endFree he) h₂
    exact ⟨us ++ vs, hus.trans hvs fun hq hg => (bind_of_ok hq g).trans hg⟩
  error := by
    intro c c' e he h hQ
    rcases bind_eq_error.mp h with h₁ | ⟨a, c₁, h₁, h₂⟩
    · exact (hp.error he h₁ hQ).of_run fun hq => ⟨_, bind_of_error hq g⟩
    · obtain ⟨us, hus⟩ := hp.ok he h₁
      have hfail := (hf a).error (hus.endFree he) h₂ hQ
      exact hus.error hfail fun hq hg => ⟨_, (bind_of_ok hq g).trans hg⟩

/-- A value made of what was read. -/
theorem map (f : α → β) {p q : Parse α} (hp : Steady Q p q) :
    Steady Q (p >>= fun a => Pure.pure (f a)) (q >>= fun a => Pure.pure (f a)) :=
  hp.bind fun a => pure (f a)

/-- **Looking at the next token**, and reading on as it asks or failing because of it. -/
theorem look {p q : Parse α} {f g : Option Token → Parse α} (hp : ∀ c, p c = f c.peek c)
    (hq : ∀ c, q c = g c.peek c) (hnone : Steady Q (f none) (g none))
    (hsome : ∀ t, Steady Q (f (some t)) (g (some t)) ∨ Refuses t (f (some t)) (g (some t))) :
    Steady Q p q where
  ok := by
    rintro ⟨rd, ts, d⟩ c' a he h
    rw [hp] at h
    cases ts with
    | nil =>
      obtain ⟨us, hus⟩ := hnone.ok he h
      exact ⟨us, hus.at_end rfl⟩
    | cons u ts =>
      have hu : u.kind ≠ .endOfInput := (endFree_cons.mp he).1
      rw [Cursor.peek_cons hu] at h
      rcases hsome u with hs | ⟨e, -, hfail⟩
      · obtain ⟨us, hus⟩ := hs.ok he h
        exact ⟨us, hus.of_look hq hu rfl⟩
      · obtain ⟨⟨c₁, hc₁⟩, -⟩ := hfail ⟨rd, u :: ts, d⟩
        rw [hc₁] at h
        cases h
  error := by
    rintro ⟨rd, ts, d⟩ c' e he h hQ
    rw [hp] at h
    cases ts with
    | nil => exact absurd rfl (hnone.error he h hQ).ne_nil
    | cons u ts =>
      have hu : u.kind ≠ .endOfInput := (endFree_cons.mp he).1
      rw [Cursor.peek_cons hu] at h
      rcases hsome u with hs | ⟨e', htok, hfail⟩
      · exact (hs.error he h hQ).of_look hq hu rfl
      · obtain ⟨⟨c₁, hc₁⟩, -⟩ := hfail ⟨rd, u :: ts, d⟩
        rw [hc₁] at h
        cases h
        exact .of_refused hq hu htok fun c => (hfail c).2

theorem peek {f g : Option Token → Parse α} (hnone : Steady Q (f none) (g none))
    (hsome : ∀ t, Steady Q (f (some t)) (g (some t)) ∨ Refuses t (f (some t)) (g (some t))) :
    Steady Q (Parse.peek >>= f) (Parse.peek >>= g) :=
  look (fun _ => rfl) (fun _ => rfl) hnone hsome

/-- Passing over a token. -/
theorem skip {p q : Parse α} (h : Steady Q p q) :
    Steady Q (Parse.skip >>= fun _ => p) (Parse.skip >>= fun _ => q) where
  ok := by
    rintro ⟨rd, ts, d⟩ c' a he hp
    cases ts with
    | nil =>
      obtain ⟨us, hus⟩ := h.ok (c := ⟨rd, [], d⟩) he hp
      exact ⟨us, hus.at_end rfl⟩
    | cons u ts =>
      obtain ⟨hu, hts⟩ := endFree_cons.mp he
      rw [skip_bind_apply, Cursor.advance_cons hu] at hp
      obtain ⟨us, hus⟩ := h.ok (c := ⟨u :: rd, ts, d⟩) hts hp
      refine ⟨u :: us, congrArg (u :: ·) hus.rest, ?_, fun {xs} hne hx => ?_⟩
      · rw [hus.cursor]
        simp [Cursor.past]
      · rw [skip_bind_apply, List.cons_append, Cursor.advance_cons hu, hus.run hne hx]
        simp [Cursor.past]
  error := by
    rintro ⟨rd, ts, d⟩ c' e he hp hQ
    cases ts with
    | nil => exact absurd rfl (h.error (c := ⟨rd, [], d⟩) he hp hQ).ne_nil
    | cons u ts =>
      obtain ⟨hu, hts⟩ := endFree_cons.mp he
      rw [skip_bind_apply, Cursor.advance_cons hu] at hp
      obtain ⟨us, t, post, hus, htok, hq⟩ := h.error (c := ⟨u :: rd, ts, d⟩) hts hp hQ
      refine ⟨u :: us, t, post, congrArg (u :: ·) hus, htok, fun xs => ?_⟩
      obtain ⟨c'', hc''⟩ := hq xs
      refine ⟨c'', ?_⟩
      rw [skip_bind_apply, List.cons_append, Cursor.advance_cons hu]
      exact hc''

/-- A choice by the next token, which neither side reads here. -/
theorem sees (k : Kind) {p q p' q' : Parse α} (h : Steady Q p p') (h' : Steady Q q q') :
    Steady Q (Parse.sees k >>= fun b => if b = true then p else q)
      (Parse.sees k >>= fun b => if b = true then p' else q') := by
  refine look (f := fun o => if (o.map (·.kind) == some k) = true then p else q)
    (g := fun o => if (o.map (·.kind) == some k) = true then p' else q')
    (fun c => rfl) (fun c => rfl) ?_ fun t => .inl ?_
  · simpa using h'
  · by_cases hk : (Option.map (·.kind) (some t) == some k) = true
    · rw [if_pos hk, if_pos hk]
      exact h
    · rw [if_neg hk, if_neg hk]
      exact h'

/-- A body counts as one deeper while it is read. -/
theorem deeper {p q : Parse α} (h : Steady Q p q) : Steady Q (Parse.deeper p) (Parse.deeper q) where
  ok := by
    intro c c' a he hp
    obtain ⟨c₁, h₁, rfl⟩ := deeper_eq_ok.mp hp
    obtain ⟨us, hus⟩ := h.ok (c := { c with depth := c.depth + 1 }) he h₁
    refine ⟨us, hus.rest, ?_, fun hne hx => deeper_eq_ok.mpr ⟨_, hus.run hne hx, rfl⟩⟩
    rw [hus.cursor]
    rfl
  error := by
    intro c c' e he hp hQ
    obtain ⟨c₁, h₁, rfl⟩ := deeper_eq_error.mp hp
    obtain ⟨us, t, post, hus, htok, hq⟩ := h.error (c := { c with depth := c.depth + 1 }) he h₁ hQ
    refine ⟨us, t, post, hus, htok, fun xs => ?_⟩
    obtain ⟨c'', hc''⟩ := hq xs
    exact ⟨_, deeper_eq_error.mpr ⟨c'', hc'', rfl⟩⟩

/-- What is read makes fewer tokens of what is left. -/
theorem length_lt_iff {us zs : List Token} : zs.length < (us ++ zs).length ↔ us ≠ [] := by
  rw [List.length_append, ← List.length_pos_iff]
  omega

theorem many_ok {step step' : Parse (Option α)} (h : Steady Q step step')
    (hstep : Productive step) {c c' : Cursor} {as : List α} (he : EndFree c.rest)
    (hp : Parse.many step c = .ok as c') :
    ∃ us, Repeats (Parse.many step') c as c' us := by
  -- the induction is on the tokens left, of which every item reads one
  induction hn : c.rest.length using Nat.strongRecOn generalizing c as with
  | ind n ih =>
    subst hn
    cases hs : step c with
    | error e c₁ =>
      rw [many_of_error hs] at hp
      cases hp
    | ok o c₁ =>
      obtain ⟨us, hus⟩ := h.ok he hs
      cases o with
      | none =>
        rw [many_of_none hs] at hp
        cases hp
        exact ⟨us, hus.rest, hus.cursor, fun hne hx => many_of_none (hus.run hne hx)⟩
      | some a =>
        have hlt := hstep hs
        have hread : us ≠ [] := length_lt_iff.mp (hus.rest ▸ hlt)
        rw [many_of_some hs hlt] at hp
        obtain ⟨as', c₂, h₂, h₃⟩ := bind_eq_ok.mp hp
        cases h₃
        obtain ⟨vs, hvs⟩ := ih _ hlt (hus.endFree he) h₂ rfl
        refine ⟨us ++ vs, hus.trans hvs fun hq hg => ?_⟩
        rw [many_of_some hq (length_lt_iff.mpr hread), bind_of_ok hg]
        rfl

theorem many_error {step step' : Parse (Option α)} (h : Steady Q step step')
    (hstep : Productive step) {c c' : Cursor} {e : SyntaxError} (he : EndFree c.rest)
    (hp : Parse.many step c = .error e c') (hQ : Q e) :
    RepeatsError (Parse.many step') c e := by
  induction hn : c.rest.length using Nat.strongRecOn generalizing c with
  | ind n ih =>
    subst hn
    cases hs : step c with
    | error e' c₁ =>
      rw [many_of_error hs] at hp
      cases hp
      exact (h.error he hs hQ).of_run fun hq => ⟨_, many_of_error hq⟩
    | ok o c₁ =>
      obtain ⟨us, hus⟩ := h.ok he hs
      cases o with
      | none =>
        rw [many_of_none hs] at hp
        cases hp
      | some a =>
        have hlt := hstep hs
        have hread : us ≠ [] := length_lt_iff.mp (hus.rest ▸ hlt)
        rw [many_of_some hs hlt] at hp
        rcases bind_eq_error.mp hp with h₂ | ⟨as, c₂, -, h₃⟩
        · refine hus.error (ih _ hlt (hus.endFree he) h₂ rfl) fun hq hg => ?_
          rw [many_of_some hq (length_lt_iff.mpr hread)]
          exact ⟨_, bind_of_error hg _⟩
        · cases h₃

/-- **Repetition** of a productive step: both parses read the same items. -/
theorem many {step step' : Parse (Option α)} (h : Steady Q step step') (hstep : Productive step) :
    Steady Q (Parse.many step) (Parse.many step') where
  ok he hp := many_ok h hstep he hp
  error he hp hQ := many_error h hstep he hp hQ

end Steady

section

variable (hQ : ∀ e, Q e → e.tag ≠ .incompleteInput)

include hQ

theorem steady_requireMore (what : String) {f g : Token → Parse α}
    (h : ∀ t, Steady Q (f t) (g t) ∨ Refuses t (f t) (g t)) :
    Steady Q (requireMore what >>= f) (requireMore what >>= g) := by
  unfold requireMore
  rw [bind_assoc, bind_assoc]
  refine .peek (.of_error fun c => ⟨_, c, rfl, fun hc => ?_⟩) h
  exact hQ _ hc (Cursor.incomplete_tag c _)

/-- A token that has to be there is read if it is of the right kind, and refused otherwise. What
comes after it may be about it. -/
theorem steady_expect_bind (k : Kind) (what : String) {f g : Token → Parse α}
    (h : ∀ t, Steady Q (Parse.skip >>= fun _ => f t) (Parse.skip >>= fun _ => g t) ∨
      Refuses t (Parse.skip >>= fun _ => f t) (Parse.skip >>= fun _ => g t)) :
    Steady Q (expect k what >>= f) (expect k what >>= g) := by
  unfold expect
  rw [bind_assoc, bind_assoc]
  refine .peek (.of_error fun c => ⟨_, c, rfl, fun hc => ?_⟩) fun t => ?_
  · exact hQ _ hc (Cursor.incomplete_tag c _)
  · by_cases hk : t.kind = k
    · simp only [if_pos hk]
      exact h t
    · have hfail := refuses_throw (α := α) .missingDelimiter
        s!"Expected '{k.spelling}' {what}, got '{t.value}'." t
      simp only [if_neg hk]
      exact .inr hfail

theorem steady_expect (k : Kind) (what : String) : Steady Q (expect k what) (expect k what) := by
  have h := steady_expect_bind hQ k what (f := pure) (g := pure) fun t => .inl (.skip (.pure t))
  rwa [bind_pure] at h

end

end Parse

end BlockLang
