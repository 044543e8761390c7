import BlockLang.Proofs.Lookahead.Steady

/-!
# Predictive parses

A predictive parse is told what to do by the terminal in front of it, one at a time. It reads on, or
complains about the next token, or about the end of the input in its place. Every parse of the
grammar is put together from such steps, so what holds of all such parses is proved once, by
induction on how they are put together.

Two facts are proved here. A predictive parse does the same from two cursors that a simulation
relates, and it settles everything one token ahead. A property that is kept by reading on is a
simulation of a cursor by itself, so it says something about the errors.
-/

namespace BlockLang

/-- The kind of the tokens that a terminal stands for. -/
def Terminal.kind : Terminal → Kind
  | symbol _ => .symbol
  | mark k => k

@[simp] theorem Token.kind_terminal (t : Token) : t.terminal.kind = t.kind := by
  by_cases h : t.kind = .symbol
  · rw [terminal_of_symbol h, h, Terminal.kind]
  · rw [terminal_of_ne h, Terminal.kind]

/-- The tags of the errors about a token. -/
def SyntaxError.Tag.violations : List Tag :=
  [unexpectedToken, expectedInstruction, missingName, missingType, missingDelimiter,
    nestingTooDeep]

namespace Cursor

/-- What the grammar sees of the next token. -/
def front (c : Cursor) : Option Terminal := c.peek.map Token.terminal

/-- The error about the next token, or that the input has ended in its place. -/
def complaint (c : Cursor) (tag : SyntaxError.Tag) (message : String → String) (ended : String) :
    SyntaxError :=
  match c.peek with
  | none => c.incomplete ended
  | some t => .about tag (message t.value) t

variable {c : Cursor} {t : Token}

theorem front_of_none (h : c.peek = none) : c.front = none := by rw [front, h, Option.map_none]

theorem front_of_some (h : c.peek = some t) : c.front = some t.terminal := by
  rw [front, h, Option.map_some]

theorem sees_eq_front (k : Kind) : c.sees k = (c.front.map Terminal.kind == some k) := by
  cases h : c.peek <;> simp [sees, peekKind, front, h]

/-- What is complained about depends on whether there is a next token. -/
theorem complaint_tag (c : Cursor) (tag : SyntaxError.Tag) (message : String → String)
    (ended : String) :
    (c.complaint tag message ended).tag = if c.front = none then .incompleteInput else tag := by
  cases h : c.peek with
  | none => rw [complaint, h, incomplete_tag, front_of_none h, if_pos rfl]
  | some t =>
    rw [complaint, h, front_of_some h, if_neg (by simp)]
    rfl

/-- A complaint is never that a repetition has stalled. -/
theorem complaint_ne_stalled (c : Cursor) {tag : SyntaxError.Tag}
    (htag : tag ∈ SyntaxError.Tag.violations) {message : String → String} {ended : String} :
    c.complaint tag message ended ≠ Parse.stalled := by
  intro heq
  have hgeneral : (c.complaint tag message ended).tag = .general := by rw [heq]; rfl
  rw [complaint_tag] at hgeneral
  split at hgeneral
  · cases hgeneral
  · subst hgeneral
    exact absurd htag (by decide)

end Cursor

namespace Parse

variable {α β : Type}

/-- Reading on as the terminal in front asks. -/
def look (f : Option Terminal → Parse α) : Parse α := fun c => f c.front c

theorem sees_bind_eq_look (k : Kind) (f : Bool → Parse α) :
    (sees k >>= f) = look fun w => f (w.map Terminal.kind == some k) := by
  funext c
  rw [sees_bind_apply, Cursor.sees_eq_front, look]

/-- Failing with a complaint about the next token. -/
def complain (tag : SyntaxError.Tag) (message : String → String) (ended : String) : Parse α :=
  fun c => .error (c.complaint tag message ended) c

/-- Reading the next token, and failing with a complaint about it. -/
def complainPast (tag : SyntaxError.Tag) (message : String → String) (ended : String) : Parse α :=
  fun c => .error (c.complaint tag message ended) c.advance

/-- Going on with the text of the symbol in front, or without one. -/
def onSymbol (p : String → Parse α) (q : Parse α) : Option Terminal → Parse α
  | some (.symbol s) => p s
  | _ => q

section

variable {p : String → Parse α} {q : Parse α} {t : Token}

theorem onSymbol_none : onSymbol p q none = q := by
  rw [onSymbol]
  intro s hs
  cases hs

theorem onSymbol_of_eq (h : t.kind = .symbol) : onSymbol p q (some t.terminal) = p t.value := by
  rw [Token.terminal_of_symbol h, onSymbol]

theorem onSymbol_of_ne (h : t.kind ≠ .symbol) : onSymbol p q (some t.terminal) = q := by
  rw [Token.terminal_of_ne h, onSymbol]
  intro s hs
  cases hs

end

section

variable {tag : SyntaxError.Tag} {message : String → String} {ended : String} {c : Cursor}

theorem complain_of_none (h : c.peek = none) :
    complain tag message ended c = (failIncomplete ended : Parse α) c := by
  rw [complain, Cursor.complaint, h, failIncomplete_apply]

theorem complain_of_some {t : Token} (h : c.peek = some t) :
    complain tag message ended c = (throw (.about tag (message t.value) t) : Parse α) c := by
  rw [complain, Cursor.complaint, h, throw_apply]

end

/-- **A parse put together from single steps**, each told by the terminal in front. What it repeats
is productive, so it comes to an end. -/
inductive Predictive : {α : Type} → Parse α → Prop
  | pure {α : Type} (a : α) : Predictive (Pure.pure a)
  | bind {α β : Type} {p : Parse α} {f : α → Parse β} :
      Predictive p → (∀ a, Predictive (f a)) → Predictive (p >>= f)
  | look {α : Type} {f : Option Terminal → Parse α} :
      (∀ w, Predictive (f w)) → Predictive (Parse.look f)
  | skip : Predictive Parse.skip
  /-- A complaint about the next token, which may have been read before it is complained about. -/
  | complaint {α : Type} {p : Parse α} {tag : SyntaxError.Tag} {message : String → String}
      {ended : String} : tag ∈ SyntaxError.Tag.violations →
      (∀ c, p c = .error (c.complaint tag message ended) c ∨
        p c = .error (c.complaint tag message ended) c.advance) → Predictive p
  | many {α : Type} {step : Parse (Option α)} :
      Predictive step → Productive step → Predictive (Parse.many step)
  | deeper {α : Type} {p : Parse α} : Predictive p → Predictive (Parse.deeper p)

namespace Predictive

variable {p q : Parse α}

theorem complain {tag : SyntaxError.Tag} (htag : tag ∈ SyntaxError.Tag.violations)
    (message : String → String) (ended : String) :
    Predictive (Parse.complain tag message ended : Parse α) :=
  .complaint htag fun _ => .inl rfl

theorem complainPast {tag : SyntaxError.Tag} (htag : tag ∈ SyntaxError.Tag.violations)
    (message : String → String) (ended : String) :
    Predictive (Parse.complainPast tag message ended : Parse α) :=
  .complaint htag fun _ => .inr rfl

/-- A value made of what was read. -/
theorem map (f : α → β) (h : Predictive p) : Predictive (p >>= fun a => Pure.pure (f a)) :=
  h.bind fun a => .pure (f a)

/-- Passing over a token. -/
theorem skipping (h : Predictive p) : Predictive (Parse.skip >>= fun _ => p) :=
  .bind .skip fun _ => h

/-- Looking at the next token, when only its terminal matters. -/
theorem peek {f : Option Token → Parse α} (g : Option Terminal → Parse α)
    (hf : ∀ c, f c.peek c = g c.front c) (hg : ∀ w, Predictive (g w)) :
    Predictive (Parse.peek >>= f) := by
  have heq : (Parse.peek >>= f) = Parse.look g := funext hf
  rw [heq]
  exact .look hg

/-- A choice by the next token. -/
theorem sees (k : Kind) (hp : Predictive p) (hq : Predictive q) :
    Predictive (Parse.sees k >>= fun b => if b = true then p else q) := by
  rw [sees_bind_eq_look]
  refine .look fun w => ?_
  split
  · exact hp
  · exact hq

/-- A comma that may be left out. -/
theorem skipComma (h : Predictive p) : Predictive (Parse.skipComma >>= fun _ => p) := by
  rw [skipComma_bind]
  exact h.skipping.sees _ h

/-- Looking at a token that has to be there. -/
theorem requireMore (what : String) {f : Token → Parse α} (g : Terminal → Parse α)
    (hf : ∀ c t, c.peek = some t → f t c = g t.terminal c) (hg : ∀ w, Predictive (g w)) :
    Predictive (Parse.requireMore what >>= f) := by
  unfold Parse.requireMore
  rw [bind_assoc]
  -- at the end of the input any complaint is that it has ended
  refine .peek (fun w => w.elim (Parse.complain .unexpectedToken id
    s!"Unexpected end of input in {what}.") g) (fun c => ?_) fun w => ?_
  · cases hc : c.peek with
    | none =>
      rw [Cursor.front_of_none hc, Option.elim_none, complain_of_none hc]
      rfl
    | some t =>
      rw [Cursor.front_of_some hc, Option.elim_some, ← hf c t hc]
      rfl
  · cases w with
    | none => exact .complain (by decide) _ _
    | some w => exact hg w

/-- A token that has to be there, whatever it is. -/
theorem afterMore (what : String) (h : Predictive p) :
    Predictive (Parse.requireMore what >>= fun _ => p) :=
  .requireMore what (fun _ => p) (fun _ _ _ => rfl) fun _ => h

/-- A required token, when what comes behind it is told nothing more about it. -/
theorem expect_bind {k : Kind} (what : String) {f : Token → Parse α}
    (hf : ∀ c t, c.peek = some t → (Parse.skip >>= fun _ => f t) c = p c) (hp : Predictive p) :
    Predictive (Parse.expect k what >>= f) := by
  unfold Parse.expect
  rw [bind_assoc]
  refine .peek (fun w => if w.map Terminal.kind = some k then p else
    Parse.complain .missingDelimiter (fun v => s!"Expected '{k.spelling}' {what}, got '{v}'.")
      s!"Expected '{k.spelling}' {what}, got end of input.") (fun c => ?_) fun w => ?_
  · cases hc : c.peek with
    | none =>
      rw [Cursor.front_of_none hc, Option.map_none, if_neg (by simp), complain_of_none hc]
      rfl
    | some t =>
      rw [Cursor.front_of_some hc, Option.map_some, Token.kind_terminal]
      by_cases ht : t.kind = k
      · rw [if_pos (by rw [ht]), ← hf c t hc]
        simp only [if_pos ht]
        rfl
      · rw [if_neg (by simpa using ht), complain_of_some hc]
        simp only [if_neg ht]
        rfl
  · split
    · exact hp
    · exact .complain (by decide) _ _

/-- A required token, and what comes behind it. -/
theorem expect (k : Kind) (what : String) (h : Predictive p) :
    Predictive (Parse.expect k what >>= fun _ => p) :=
  .expect_bind what (fun _ _ _ => rfl) h.skipping

/-- A choice by whether a symbol is in front. -/
theorem onSymbol {p : String → Parse α} (hp : ∀ s, Predictive (p s)) (hq : Predictive q)
    (w : Option Terminal) : Predictive (Parse.onSymbol p q w) := by
  unfold Parse.onSymbol
  split
  · exact hp _
  · exact hq

/-- Looking for a symbol, when only its text matters. -/
theorem peekSymbol {f : Option Token → Parse α} {p : String → Parse α} {q : Parse α}
    (hsymbol : ∀ t, t.kind = .symbol → f (some t) = p t.value)
    (hnone : ∀ c, c.peek = none → f none c = q c)
    (hother : ∀ c t, c.peek = some t → t.kind ≠ .symbol → f (some t) c = q c)
    (hp : ∀ s, Predictive (p s)) (hq : Predictive q) : Predictive (Parse.peek >>= f) := by
  refine .peek (Parse.onSymbol p q) (fun c => ?_) (.onSymbol hp hq)
  cases hc : c.peek with
  | none => rw [Cursor.front_of_none hc, onSymbol_none, hnone c hc]
  | some t =>
    rw [Cursor.front_of_some hc]
    by_cases ht : t.kind = .symbol
    · rw [onSymbol_of_eq ht, hsymbol t ht]
    · rw [onSymbol_of_ne ht, hother c t hc ht]

/-- A required symbol. -/
theorem expectSymbol {tag : SyntaxError.Tag} (htag : tag ∈ SyntaxError.Tag.violations)
    (message : String) : Predictive (Parse.expectSymbol tag message) := by
  refine .peekSymbol (p := fun s => Parse.skip >>= fun _ => Pure.pure s)
    (q := Parse.complain tag (fun v => s!"{message} Got '{v}'.") message) (fun t ht => ?_)
    (fun c hc => (complain_of_none hc).symm) (fun c t hc ht => ?_) (fun s => .skipping (.pure s))
    (.complain htag _ _)
  · simp only [if_pos ht]
  · rw [complain_of_some hc]
    simp only [if_neg ht]

end Predictive

/-! ## Simulations -/

/-- **A simulation**: cursors that `R` relates see the same terminals one after the other, and have
complaints that `E` relates. -/
structure Simulation (R : Cursor → Cursor → Prop) (E : SyntaxError → SyntaxError → Prop) :
    Prop where
  front {c c'} : R c c' → c.front = c'.front
  advance {c c'} : R c c' → R c.advance c'.advance
  /-- The number of open bodies is not looked at. -/
  depth {c c'} (f : Nat → Nat) : R c c' →
    R { c with depth := f c.depth } { c' with depth := f c'.depth }
  complaint {c c' tag message ended} : tag ∈ SyntaxError.Tag.violations → R c c' →
    E (c.complaint tag message ended) (c'.complaint tag message ended)

/-- Two results agree: the same was found and the cursors are related, or the errors are. -/
inductive Agree (R : Cursor → Cursor → Prop) (E : SyntaxError → SyntaxError → Prop) :
    EStateM.Result SyntaxError Cursor α → EStateM.Result SyntaxError Cursor α → Prop
  | ok {a c c'} : R c c' → Agree R E (.ok a c) (.ok a c')
  | error {e e' c c'} : E e e' → Agree R E (.error e c) (.error e' c')

section

variable {R : Cursor → Cursor → Prop} {E : SyntaxError → SyntaxError → Prop}

/-- Results that agree still do with what comes behind them. -/
theorem Agree.bind {p q : Parse α} {f g : α → Parse β} {c c' : Cursor}
    (h : Agree R E (p c) (q c')) (hf : ∀ a {d d'}, R d d' → Agree R E (f a d) (g a d')) :
    Agree R E ((p >>= f) c) ((q >>= g) c') := by
  generalize hp : p c = x at h
  generalize hq : q c' = y at h
  cases h with
  | ok hd =>
    rw [bind_of_ok hp, bind_of_ok hq]
    exact hf _ hd
  | error he =>
    rw [bind_of_error hp, bind_of_error hq]
    exact .error he

/-- Repeating steps that agree: if one goes on then so does the other. -/
theorem Agree.many {step : Parse (Option α)} (hstep : Productive step)
    (h : ∀ {c c'}, R c c' → Agree R E (step c) (step c')) {c c' : Cursor} (hc : R c c') :
    Agree R E (Parse.many step c) (Parse.many step c') := by
  -- the induction is on the tokens left, of which every item reads one
  induction hn : c.rest.length using Nat.strongRecOn generalizing c c' with
  | ind n ih =>
    subst hn
    have hstep := h hc
    generalize hx : step c = x at hstep
    generalize hy : step c' = y at hstep
    cases hstep with
    | error he =>
      rw [many_of_error hx, many_of_error hy]
      exact .error he
    | @ok o d d' hd =>
      cases o with
      | none =>
        rw [many_of_none hx, many_of_none hy]
        exact .ok hd
      | some a =>
        rw [many_of_some hx (hstep hx), many_of_some hy (hstep hy)]
        exact (ih _ (hstep hx) hd rfl).bind fun as _ _ h => .ok h

/-- A body counts as one deeper on both sides. -/
theorem Simulation.deeper (hs : Simulation R E) {p q : Parse α}
    (h : ∀ {c c'}, R c c' → Agree R E (p c) (q c')) {c c' : Cursor} (hc : R c c') :
    Agree R E (Parse.deeper p c) (Parse.deeper q c') := by
  have hin := h (hs.depth (· + 1) hc)
  unfold Parse.deeper
  generalize p _ = x at hin ⊢
  generalize q _ = y at hin ⊢
  cases hin with
  | ok hd => exact .ok (hs.depth (· - 1) hd)
  | error he => exact .error he

/-- **A predictive parse does the same from related cursors.** -/
theorem Predictive.agree {p : Parse α} (h : Predictive p) (hs : Simulation R E) {c c' : Cursor}
    (hc : R c c') : Agree R E (p c) (p c') := by
  induction h generalizing c c' with
  | pure a => exact .ok hc
  | bind _ _ ihp ihf => exact (ihp hc).bind fun a _ _ hd => ihf a hd
  | look _ ih =>
    rw [Parse.look, Parse.look, hs.front hc]
    exact ih _ hc
  | skip => exact .ok (hs.advance hc)
  | complaint htag hp =>
    rcases hp c with h₁ | h₁ <;> rcases hp c' with h₂ | h₂ <;> rw [h₁, h₂] <;>
      exact .error (hs.complaint htag hc)
  | many _ hstep ih => exact .many hstep ih hc
  | deeper _ ih => exact hs.deeper ih hc

end

/-! ## Invariants -/

/-- **An invariant of reading**: `P` holds of every cursor, and so `E` holds of every complaint. -/
structure Invariant (P : Cursor → Prop) (E : SyntaxError → Prop) : Prop where
  advance {c} : P c → P c.advance
  /-- The number of open bodies is not looked at. -/
  depth {c} (f : Nat → Nat) : P c → P { c with depth := f c.depth }
  complaint {c tag message ended} : tag ∈ SyntaxError.Tag.violations → P c →
    E (c.complaint tag message ended)

/-- With an invariant, a cursor simulates itself. -/
theorem Invariant.simulation {P : Cursor → Prop} {E : SyntaxError → Prop} (h : Invariant P E) :
    Simulation (fun c c' => c' = c ∧ P c) fun e _ => E e where
  front := by
    rintro c _ ⟨rfl, -⟩
    rfl
  advance := by
    rintro c _ ⟨rfl, hc⟩
    exact ⟨rfl, h.advance hc⟩
  depth := by
    rintro c _ f ⟨rfl, hc⟩
    exact ⟨rfl, h.depth f hc⟩
  complaint := by
    rintro c _ tag message ended htag ⟨rfl, hc⟩
    exact h.complaint htag hc

/-! ## One token ahead -/

/-- What fails with a complaint about the token in front is settled by that token. -/
theorem steady_complaint {Q : SyntaxError → Prop} (hQ : ∀ e, Q e → e.tag ≠ .incompleteInput)
    {p : Parse α} {tag : SyntaxError.Tag} {message : String → String} {ended : String}
    (h : ∀ c, ∃ c', p c = .error (c.complaint tag message ended) c') : Steady Q p p where
  ok := by
    intro c c' a _ hp
    obtain ⟨c₁, h₁⟩ := h c
    rw [h₁] at hp
    cases hp
  error := by
    rintro ⟨rd, ts, d⟩ c' e he hp hq
    obtain ⟨c₁, h₁⟩ := h ⟨rd, ts, d⟩
    rw [h₁] at hp
    cases hp
    cases ts with
    | nil => exact absurd (Cursor.incomplete_tag _ _) (hQ _ hq)
    | cons t ts =>
      -- whatever comes behind the token, it is the next one and complained about
      have hpeek : ∀ xs, Cursor.peek ⟨rd, t :: xs, d⟩ = some t :=
        fun xs => Cursor.peek_cons (endFree_cons.mp he).1
      have hcomplaint : ∀ xs, Cursor.complaint ⟨rd, t :: xs, d⟩ tag message ended =
          .about tag (message t.value) t := by
        intro xs
        rw [Cursor.complaint, hpeek]
      refine ⟨[], t, ts, rfl, ?_, fun xs => ?_⟩
      · rw [hcomplaint]
        rfl
      · obtain ⟨c₂, h₂⟩ := h ⟨rd, t :: xs, d⟩
        rw [hcomplaint ts, ← hcomplaint xs]
        exact ⟨c₂, h₂⟩

/-- **A predictive parse is steady.** -/
theorem Predictive.steady {Q : SyntaxError → Prop} (hQ : ∀ e, Q e → e.tag ≠ .incompleteInput)
    {p : Parse α} (h : Predictive p) : Steady Q p p := by
  induction h with
  | pure a => exact .pure a
  | bind _ _ ihp ihf => exact ihp.bind ihf
  | @look _ f _ ih =>
    exact .look (f := fun o => f (o.map Token.terminal)) (g := fun o => f (o.map Token.terminal))
      (fun _ => rfl) (fun _ => rfl) (ih none) fun t => .inl (ih (some t.terminal))
  | skip =>
    have hskip : Steady Q (Parse.skip >>= fun _ => Pure.pure ()) (Parse.skip >>= fun _ =>
      Pure.pure ()) := .skip (.pure ())
    rwa [bind_pure] at hskip
  | complaint _ hp =>
    exact steady_complaint hQ fun c => (hp c).elim (fun h => ⟨_, h⟩) fun h => ⟨_, h⟩
  | many _ hstep ih => exact ih.many hstep
  | deeper _ ih => exact ih.deeper

end Parse

end BlockLang
