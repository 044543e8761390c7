import BlockLang.Proofs.Lookahead.Places

/-!
# Runs

A parse is a function and gives a result from everywhere. What it stands for is a program with
loops, and whether these end is a question of its own. A loop whose step finds something without
reading a token takes that step for ever, and as a function it is stalled: there it has the one
error that nothing else has, and the error goes through all that is around the loop. So a parse
whose loops do not end is told by its result.

A run is spelled out here step by step: a loop takes its step again for as long as the step finds
something, and nothing else ends it. A run comes to the result of the parse and never to a stalled
loop, so a loop that does not read has none (`not_runs_many`). Every predictive parse has a run from
everywhere. And wherever a run ends, whether it has succeeded or failed, the cursor has only read
on.
-/

namespace BlockLang

namespace Parse

variable {α β : Type}

/-- A result behind a body, which counts as closed then. -/
def closed : EStateM.Result SyntaxError Cursor α → EStateM.Result SyntaxError Cursor α
  | .ok a c => .ok a { c with depth := c.depth - 1 }
  | .error e c => .error e { c with depth := c.depth - 1 }

theorem deeper_apply (p : Parse α) (c : Cursor) :
    deeper p c = closed (p { c with depth := c.depth + 1 }) := by
  rw [deeper]
  cases p { c with depth := c.depth + 1 } <;> rfl

/-- **A run** of a parse from a cursor to a result, in finitely many steps. -/
inductive Runs : {α : Type} → Parse α → Cursor → EStateM.Result SyntaxError Cursor α → Prop
  | pure {α : Type} (a : α) (c : Cursor) : Runs (Pure.pure a) c (.ok a c)
  | skip (c : Cursor) : Runs Parse.skip c (.ok () c.advance)
  /-- A step that fails at once wherever it is taken, if need be behind the next token. -/
  | fail {α : Type} {p : Parse α} (c : Cursor) :
      (∀ c, ∃ e ≠ stalled, p c = .error e c ∨ p c = .error e c.advance) → Runs p c (p c)
  | look {α : Type} {f : Option Terminal → Parse α} {c r} :
      Runs (f c.front) c r → Runs (Parse.look f) c r
  | bind {α β : Type} {p : Parse α} {f : α → Parse β} {c a c' r} :
      Runs p c (.ok a c') → Runs (f a) c' r → Runs (p >>= f) c r
  | bindError {α β : Type} {p : Parse α} {f : α → Parse β} {c e c'} :
      Runs p c (.error e c') → Runs (p >>= f) c (.error e c')
  /-- The step of a loop finds nothing. -/
  | done {α : Type} {step : Parse (Option α)} {c c'} :
      Runs step c (.ok none c') → Runs (Parse.many step) c (.ok [] c')
  /-- The step of a loop finds something, and the loop goes on behind it. -/
  | again {α : Type} {step : Parse (Option α)} {c a c' r} :
      Runs step c (.ok (some a) c') → Runs (Parse.many step) c' r →
        Runs (Parse.many step) c (foundBehind [a] r)
  | againError {α : Type} {step : Parse (Option α)} {c e c'} :
      Runs step c (.error e c') → Runs (Parse.many step) c (.error e c')
  | deeper {α : Type} {p : Parse α} {c r} :
      Runs p { c with depth := c.depth + 1 } r → Runs (Parse.deeper p) c (closed r)

/-- **A run has not stalled**: each of its loops has been ended by its step. -/
theorem Runs.ne_stalled {p : Parse α} {c : Cursor} {r : EStateM.Result SyntaxError Cursor α}
    (h : Runs p c r) (c' : Cursor) : r ≠ .error stalled c' := by
  induction h generalizing c' with
  | pure | skip | done => nofun
  | fail c hfail =>
    obtain ⟨e, he, hp | hp⟩ := hfail c <;> rw [hp] <;> simp [he]
  | look _ ih => exact ih c'
  | bind _ _ _ ih => exact ih c'
  | bindError _ ih | againError _ ih => simpa using ih c'
  | @again _ _ _ _ _ r _ _ _ ih =>
    cases r with
    | ok => nofun
    | error e d => exact ih c'
  | @deeper _ _ _ r _ ih =>
    cases r with
    | ok => nofun
    | error e d =>
      intro heq
      rw [closed] at heq
      cases heq
      exact ih d rfl

/-- A parse **halts** if it has a run from everywhere, to the result that it gives. -/
def Halts (p : Parse α) : Prop := ∀ c, Runs p c (p c)

namespace Halts

variable {p : Parse α}

theorem bind {f : α → Parse β} (hp : Halts p) (hf : ∀ a, Halts (f a)) : Halts (p >>= f) := by
  intro c
  have hrun := hp c
  cases h : p c with
  | ok a c' =>
    rw [h] at hrun
    rw [bind_of_ok h]
    exact .bind hrun (hf a c')
  | error e c' =>
    rw [h] at hrun
    rw [bind_of_error h]
    exact .bindError hrun

/-- A value made of what was read. -/
theorem map (f : α → β) (hp : Halts p) : Halts (p >>= fun a => Pure.pure (f a)) :=
  hp.bind fun a => .pure (f a)

theorem look {f : Option Terminal → Parse α} (h : ∀ w, Halts (f w)) : Halts (Parse.look f) :=
  fun c => .look (h _ c)

/-- Passing over a token. -/
theorem skipping (h : Halts p) : Halts (Parse.skip >>= fun _ => p) :=
  bind .skip fun _ => h

/-- A choice by the next token. -/
theorem sees {q : Parse α} (k : Kind) (hp : Halts p) (hq : Halts q) :
    Halts (Parse.sees k >>= fun b => if b = true then p else q) := by
  rw [sees_bind_eq_look]
  refine .look fun w => ?_
  split
  · exact hp
  · exact hq

/-- **A loop ends** if its step is productive. -/
theorem many {step : Parse (Option α)} (h : Halts step) (hstep : Productive step) :
    Halts (Parse.many step) := by
  intro c
  -- the induction is on the tokens left, of which every item reads one
  induction hn : c.rest.length using Nat.strongRecOn generalizing c with
  | ind n ih =>
    subst hn
    have hrun := h c
    cases hs : step c with
    | error e c₁ =>
      rw [hs] at hrun
      rw [many_of_error hs]
      exact .againError hrun
    | ok o c₁ =>
      rw [hs] at hrun
      cases o with
      | none =>
        rw [many_of_none hs]
        exact .done hrun
      | some a =>
        have hagain := hrun.again (ih _ (hstep hs) c₁ rfl)
        rw [many_of_some hs (hstep hs)]
        cases hm : Parse.many step c₁ with
        | ok as c₂ =>
          rw [hm] at hagain
          rwa [bind_of_ok hm]
        | error e c₂ =>
          rw [hm] at hagain
          rwa [bind_of_error hm]

end Halts

/-- **A predictive parse halts.** -/
theorem Predictive.halts {p : Parse α} (h : Predictive p) : Halts p := by
  induction h with
  | pure a => exact .pure a
  | bind _ _ ihp ihf => exact ihp.bind ihf
  | look _ ih => exact .look ih
  | skip => exact .skip
  | complaint htag hp => exact fun c => .fail c fun c => ⟨_, c.complaint_ne_stalled htag, hp c⟩
  | many _ hstep ih => exact ih.many hstep
  | deeper _ ih =>
    intro c
    rw [deeper_apply]
    exact .deeper (ih _)

/-- A token that has to be there, whatever it is. -/
theorem Halts.afterMore {p : Parse α} (what : String) (h : Halts p) :
    Halts (requireMore what >>= fun _ => p) := by
  have hrun := (Predictive.afterMore what (.pure ())).halts.bind fun _ => h
  simpa only [bind_assoc, pure_bind] using hrun

section

variable {item : Parse α} (close : Kind) (what : String)

theorem Halts.separatedSteps (h : Halts item) (hitem : Progresses item) :
    Halts (Parse.many (separatedStep close item what)) := by
  have hsome := h.map some
  have hstep : Halts (separatedStep close item what) :=
    .sees _ (fun c => .pure none c) (.afterMore _
      (.sees _ (.skipping (.sees _ (fun c => .pure none c) (.afterMore _ hsome))) hsome))
  exact hstep.many (productive_separatedStep close what hitem)

/-- **A list of items ends** if its items make progress, whatever the token is that closes it. -/
theorem Halts.separated (h : Halts item) (hitem : Progresses item) :
    Halts (Parse.separated close item what) :=
  (h.separatedSteps close what hitem).bind fun as => .skipping fun c => .pure as c

end

end Parse

/-! ## Reading on -/

namespace Cursor

/-- **The cursor `c'` is ahead** of `c`: it is reached by reading on, or not moving at all. -/
inductive Ahead : Cursor → Cursor → Prop
  | refl (c : Cursor) : Ahead c c
  | next {c c' : Cursor} : Ahead c.advance c' → Ahead c c'

theorem advance_eq_or (c : Cursor) :
    c.advance = c ∨ ∃ t rest, c.rest = t :: rest ∧ t.kind ≠ .endOfInput ∧
      c.advance = { c with read := t :: c.read, rest := rest } := by
  obtain ⟨rd, ts, d⟩ := c
  cases ts with
  | nil => exact .inl rfl
  | cons t ts =>
    by_cases ht : t.kind = .endOfInput
    · exact .inl (if_pos ht)
    · exact .inr ⟨t, ts, rfl, ht, advance_cons ht⟩

/-- Reading on does not look at the number of open bodies. -/
theorem advance_with_depth (c : Cursor) (d : Nat) :
    advance { c with depth := d } = { c.advance with depth := d } := by
  obtain ⟨rd, ts, e⟩ := c
  cases ts with
  | nil => rfl
  | cons t ts => by_cases ht : t.kind = .endOfInput <;> simp [advance, ht]

namespace Ahead

variable {c c' c'' : Cursor}

theorem trans (h : Ahead c c') (h' : Ahead c' c'') : Ahead c c'' := by
  induction h with
  | refl => exact h'
  | next _ ih => exact .next (ih h')

/-- What is kept by reading the next token is kept by reading on. -/
theorem keeps (h : Ahead c c') {P : Cursor → Prop} (hP : ∀ c, P c → P c.advance) (hc : P c) :
    P c' := by
  induction h with
  | refl => exact hc
  | next _ ih => exact ih (hP _ hc)

theorem with_depth (h : Ahead c c') (d : Nat) :
    Ahead { c with depth := d } { c' with depth := d } := by
  induction h with
  | refl => exact .refl _
  | next _ ih =>
    rw [← advance_with_depth] at ih
    exact .next ih

theorem length_rest_le (h : Ahead c c') : c'.rest.length ≤ c.rest.length :=
  h.keeps (P := fun d => d.rest.length ≤ c.rest.length)
    (fun d hd => Nat.le_trans d.length_rest_advance_le hd) (Nat.le_refl _)

/-- A cursor that is ahead with as many tokens left has not moved. -/
theorem eq_of_length_le (h : Ahead c c') (hle : c.rest.length ≤ c'.rest.length) : c' = c := by
  induction h with
  | refl => rfl
  | @next c _ hnext ih =>
    rcases c.advance_eq_or with heq | ⟨t, rest, hrest, -, heq⟩
    · rw [heq] at ih
      exact ih hle
    · have hbehind := hnext.length_rest_le
      rw [heq] at hbehind
      rw [hrest, List.length_cons] at hle
      dsimp only at hbehind
      omega

theorem depth_eq (h : Ahead c c') : c'.depth = c.depth := by
  refine h.keeps (P := fun d => d.depth = c.depth) (fun d hd => ?_) rfl
  rcases d.advance_eq_or with heq | ⟨t, rest, -, -, heq⟩ <;> rw [heq] <;> exact hd

theorem position_le (h : Ahead c c') : c.position ≤ c'.position := by
  refine h.keeps (P := fun d => c.position ≤ d.position) (fun d hd => ?_) (Nat.le_refl _)
  rcases d.advance_eq_or with heq | ⟨t, rest, -, -, heq⟩ <;> rw [heq]
  · exact hd
  · exact Nat.le_succ_of_le hd

end Ahead

end Cursor

namespace Parse

variable {α : Type}

/-- The cursor at which a result leaves off, be it a success or a failure. -/
def leftAt : EStateM.Result SyntaxError Cursor α → Cursor
  | .ok _ c | .error _ c => c

/-- **A run only reads on.** A body that was opened on the way is closed again, also by a
failure. -/
theorem Runs.ahead {p : Parse α} {c : Cursor} {r : EStateM.Result SyntaxError Cursor α}
    (h : Runs p c r) : c.Ahead (leftAt r) := by
  induction h with
  | pure _ c => exact .refl c
  | skip c => exact .next (.refl _)
  | @fail _ p c hfail =>
    obtain ⟨e, -, he | he⟩ := hfail c <;> rw [he]
    · exact .refl c
    · exact .next (.refl _)
  | look _ ih => exact ih
  | bind _ _ ih ih' => exact ih.trans ih'
  | bindError _ ih => exact ih
  | done _ ih => exact ih
  | @again _ _ _ _ _ r _ _ ih ih' =>
    cases r <;> exact ih.trans ih'
  | againError _ ih => exact ih
  | @deeper _ _ c r _ ih =>
    have hdepth : (leftAt r).depth = c.depth + 1 := ih.depth_eq
    have hclosed : leftAt (closed r) = { leftAt r with depth := c.depth } := by
      cases r <;> simp_all [closed, leftAt]
    rw [hclosed]
    exact ih.with_depth c.depth

/-- **A run comes to the result of the parse**, and to no other. -/
theorem Runs.eq_apply {p : Parse α} {c : Cursor} {r : EStateM.Result SyntaxError Cursor α}
    (h : Runs p c r) : r = p c := by
  induction h with
  | pure | skip | fail => rfl
  | look _ ih => exact ih
  | bind _ _ ih ih' => rw [bind_of_ok ih.symm, ih']
  | bindError _ ih => rw [bind_of_error ih.symm]
  | done _ ih => rw [many_of_none ih.symm]
  | @again _ step c a c' r hstep hloop ih ih' =>
    by_cases hlt : c'.rest.length < c.rest.length
    · rw [many_of_some ih.symm hlt]
      cases hm : Parse.many step c' with
      | ok as d =>
        rw [bind_of_ok hm, ih', hm]
        rfl
      | error e d =>
        rw [bind_of_error hm, ih', hm]
        rfl
    · -- the step has read nothing, so the loop behind it is stalled and has no run
      obtain rfl := hstep.ahead.eq_of_length_le (Nat.le_of_not_lt hlt)
      exact absurd (ih'.trans (many_of_stalled ih.symm hlt)) (hloop.ne_stalled _)
  | againError _ ih => rw [many_of_error ih.symm]
  | deeper _ ih => rw [deeper_apply, ih]

/-- **A loop that finds something without reading has no run.** -/
theorem not_runs_many {step : Parse (Option α)} {c c' : Cursor} {a : α}
    (h : step c = .ok (some a) c') (hlt : ¬ c'.rest.length < c.rest.length)
    (r : EStateM.Result SyntaxError Cursor (List α)) : ¬ Runs (many step) c r :=
  fun hrun => hrun.ne_stalled c' (hrun.eq_apply.trans (many_of_stalled h hlt))

theorem Halts.ahead {p : Parse α} {c c' : Cursor} {a : α} (h : Halts p) (hp : p c = .ok a c') :
    c.Ahead c' := by
  have hrun := (h c).ahead
  rwa [hp] at hrun

end Parse

end BlockLang
