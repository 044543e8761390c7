import BlockLang.Proofs.Lookahead.Earliest

/-!
# The limit of nesting

The limit of a parse settles one thing only: how deep the bodies of a program may be nested. A parse
under a higher limit does exactly what the parse under a lower one does, the errors included, unless
that one runs out of room for a body. And it runs out of room exactly on the programs that are
deeper than its limit, so the depth of a program is the least limit under which it is accepted.
-/

namespace BlockLang

namespace Parse

variable {α β : Type}

/-- From the cursor `c` on, the parse `q` does what `p` does, or `p` runs out of room for a body. -/
def WidensAt (p q : Parse α) (c : Cursor) : Prop :=
  q c = p c ∨ ∃ e c', p c = .error e c' ∧ e.tag = .nestingTooDeep

/-- **The parse `q` does what `p` does**, wherever `p` does not run out of room for a body. -/
def Widens (p q : Parse α) : Prop := ∀ c, WidensAt p q c

/-- What is accepted is accepted by both. -/
theorem WidensAt.of_ok {p q : Parse α} {c c' : Cursor} {a : α} (h : WidensAt p q c)
    (hp : p c = .ok a c') : q c = .ok a c' := by
  rcases h with hsame | ⟨e, c₁, he, -⟩
  · exact hsame.trans hp
  · rw [hp] at he
    cases he

/-- One parse after another. If the first runs out of room then so do both together. -/
theorem WidensAt.bind {p q : Parse α} {f g : α → Parse β} {c : Cursor} (h : WidensAt p q c)
    (hf : ∀ a, Widens (f a) (g a)) : WidensAt (p >>= f) (q >>= g) c := by
  rcases h with hsame | ⟨e, c', he, htag⟩
  · cases hp : p c with
    | error e c₁ =>
      rw [WidensAt, bind_of_error hp, bind_of_error (hsame.trans hp)]
      exact .inl rfl
    | ok a c₁ =>
      rw [WidensAt, bind_of_ok hp, bind_of_ok (hsame.trans hp)]
      exact hf a c₁
  · exact .inr ⟨e, c', bind_of_error he f, htag⟩

namespace Widens

variable {p q : Parse α} {f g : α → Parse β}

theorem refl (p : Parse α) : Widens p p := fun _ => .inl rfl

theorem bind (h : Widens p q) (hf : ∀ a, Widens (f a) (g a)) : Widens (p >>= f) (q >>= g) :=
  fun c => (h c).bind hf

/-- What comes behind a parse that opens no body. -/
theorem after (p : Parse α) (h : ∀ a, Widens (f a) (g a)) : Widens (p >>= f) (p >>= g) :=
  (refl p).bind h

/-- A value made of what was read. -/
theorem map (f : α → β) (h : Widens p q) :
    Widens (p >>= fun a => pure (f a)) (q >>= fun a => pure (f a)) :=
  h.bind fun a => refl (pure (f a))

/-- A choice by the next token. -/
theorem sees (k : Kind) {p' q' : Parse α} (h : Widens p q) (h' : Widens p' q') :
    Widens (Parse.sees k >>= fun b => if b = true then p else p')
      (Parse.sees k >>= fun b => if b = true then q else q') := by
  refine after _ fun b => ?_
  split
  · exact h
  · exact h'

/-- Repetition: the items are the same up to the one that runs out of room. -/
theorem many {step step' : Parse (Option α)} (h : Widens step step') :
    Widens (Parse.many step) (Parse.many step') := by
  intro c
  induction c using Parse.many.induct step with
  | case1 c e c₁ hs =>
    rcases h c with hsame | ⟨e', c₂, he, htag⟩
    · exact .inl ((many_of_error (hsame.trans hs)).trans (many_of_error hs).symm)
    · exact .inr ⟨e', c₂, many_of_error he, htag⟩
  | case2 c c₁ hs =>
    exact .inl ((many_of_none ((h c).of_ok hs)).trans (many_of_none hs).symm)
  | case3 c a c₁ hs hlt _ _ _ ih | case4 c a c₁ hs hlt _ _ _ ih =>
    -- one item has been read, and the items behind it are the same or run out of room
    unfold WidensAt
    rw [many_of_some hs hlt, many_of_some ((h c).of_ok hs) hlt]
    exact ih.bind fun as => refl (pure (a :: as))
  | case5 c a c₁ hs hlt =>
    exact .inl ((many_of_stalled ((h c).of_ok hs) hlt).trans (many_of_stalled hs hlt).symm)

/-- A body counts as closed afterwards, also if it runs out of room. -/
theorem deeper (h : Widens p q) : Widens (Parse.deeper p) (Parse.deeper q) := by
  intro c
  rcases h { c with depth := c.depth + 1 } with hsame | ⟨e, c', he, htag⟩
  · left
    rw [Parse.deeper, Parse.deeper, hsame]
  · exact .inr ⟨e, _, deeper_eq_error.mpr ⟨c', he, rfl⟩, htag⟩

end Widens

/-! ## Instructions -/

section

variable {inner inner' : String → Parse (List Instruction)}

theorem widens_foreach (h : ∀ what, Widens (inner what) (inner' what)) :
    Widens (foreach inner) (foreach inner') := by
  have hclauses : Widens (foreachClauses inner) (foreachClauses inner') :=
    .after _ fun _ => .after _ fun _ => .after _ fun _ => (h _).map _
  rw [foreach_eq, foreach_eq]
  refine .after _ fun _ => .after _ fun t => ?_
  split
  · exact hclauses
  · exact .refl _

/-- **An instruction** does the same if the bodies inside it do. -/
theorem widens_instructionWith (h : ∀ what, Widens (inner what) (inner' what)) :
    Widens (instructionWith inner) (instructionWith inner') := by
  refine .after _ fun t => ?_
  cases hk : t.kind with
  | keyword k =>
    cases k with
    | ifWord => exact .after _ fun _ => .after _ fun _ => (h _).map _
    | foreach => exact widens_foreach h
    | forWord =>
      exact .after _ fun _ => .after _ fun _ => .after _ fun _ => .after _ fun _ =>
        .after _ fun _ => .after _ fun _ => (h _).map _
    | _ => exact .refl _
  | _ => exact .refl _

theorem widens_bodyStep (what : String) (h : ∀ what, Widens (inner what) (inner' what)) :
    Widens (bodyStep inner what) (bodyStep inner' what) :=
  .sees _ (.refl _) (.after _ fun _ => (widens_instructionWith h).map some)

end

/-- **A body with more room** does what one with less room does. -/
theorem widens_bodyWithin (limit limit' : Int) {room room' : Nat} (what : String)
    (hroom : room ≤ room') :
    Widens (bodyWithin limit room what) (bodyWithin limit' room' what) := by
  induction room generalizing room' what with
  | zero =>
    -- behind its brace the body that is one too many runs out of room, whatever the other does
    have hopen : ∀ g : Token → Parse (List Instruction), Widens (bodyWithin limit 0 what)
        (expect (.delimiter .leftBrace) s!"to open {what}" >>= g) := fun g =>
      .after _ fun brace c => .inr ⟨tooDeep what limit brace, _, rfl, rfl⟩
    cases room' <;> exact hopen _
  | succ room ih =>
    obtain ⟨room', rfl⟩ : ∃ n, room' = n + 1 := ⟨room' - 1, by omega⟩
    have hstep := widens_bodyStep what fun what => ih what (Nat.le_of_succ_le_succ hroom)
    exact .after _ fun _ => hstep.many.deeper.bind fun _ => .refl _

/-! ## Programs -/

section

variable {limit limit' : Int} (hlimit : limit.toNat ≤ limit'.toNat)

include hlimit

theorem widens_body (what : String) : Widens (body limit what) (body limit' what) :=
  widens_bodyWithin limit limit' what hlimit

theorem widens_blockStep : Widens (blockStep limit) (blockStep limit') := by
  have hbody := widens_body hlimit
  rw [blockStep_eq, blockStep_eq]
  refine .after _ fun o => ?_
  cases o with
  | none => exact .refl _
  | some t =>
    refine .after _ fun _ => .map some ?_
    unfold blockBehind
    cases hk : t.kind with
    | keyword k =>
      cases k with
      | doWord => exact .after _ fun _ => (hbody _).map _
      | run => exact .after _ fun _ => .after _ fun _ => .after _ fun _ => (hbody _).map _
      | _ => exact .refl _
    | _ => exact .refl _

/-- **A program under a higher limit** is read as under the lower one, unless that runs out of
room. -/
theorem widens_program : Widens (program limit) (program limit') :=
  (widens_blockStep hlimit).many.map Program.mk

end

end Parse

namespace Program

variable {limit limit' : Int} {ts : List Token} {p : Program}

/-- **A higher limit changes no result** but the one that there is no room for a body. -/
theorem ofTokens_widens (hlimit : limit.toNat ≤ limit'.toNat) (ts : List Token) :
    ofTokens limit' ts = ofTokens limit ts ∨
      ∃ e, ofTokens limit ts = .error e ∧ e.tag = .nestingTooDeep := by
  unfold ofTokens
  rcases Parse.widens_program hlimit ⟨[], ts, 0⟩ with hsame | ⟨e, c, he, htag⟩
  · rw [hsame]
    exact .inl rfl
  · rw [he]
    exact .inr ⟨e, rfl, htag⟩

/-- What is accepted under one limit is accepted under exactly the limits that are no less than the
depth of the program. -/
theorem ofTokens_eq_ok_iff_depth_le (h : ofTokens limit' ts = .ok p) :
    ofTokens limit ts = .ok p ↔ p.depth ≤ limit.toNat := by
  -- nothing is read behind an end mark, and in front of it there is the grammar to tell
  obtain ⟨us, vs, rfl, hus, hvs⟩ := exists_append_ends ts
  rw [ofTokens_append_ends hvs] at h ⊢
  rw [ofTokens_eq_ok limit hus, and_iff_right ((ofTokens_eq_ok limit' hus).mp h).1]

/-- **The limit of nesting is exact and does nothing else.** Under a higher limit a token list has
the same program or the same error, unless its bodies were nested too deep. And a program that is
accepted under the higher limit is accepted under the lower one if it is no deeper than that, and
else its bodies are nested too deep there. -/
theorem ofTokens_limit (ts : List Token) (d d' : Nat) (h : d ≤ d') :
    ((∀ e, ofTokens d ts = .error e → e.tag ≠ .nestingTooDeep) →
        ofTokens d' ts = ofTokens d ts) ∧
      ∀ p, ofTokens d' ts = .ok p →
        (p.depth ≤ d → ofTokens d ts = .ok p) ∧
        (d < p.depth → ∃ e, ofTokens d ts = .error e ∧ e.tag = .nestingTooDeep) := by
  have hnat : (d : Int).toNat ≤ (d' : Int).toNat := by simpa using h
  have hwidens := ofTokens_widens hnat ts
  refine ⟨fun hroom => ?_, fun p hp => ⟨fun hle => ?_, fun hlt => ?_⟩⟩
  · rcases hwidens with hsame | ⟨e, he, htag⟩
    · exact hsame
    · exact absurd htag (hroom e he)
  · exact (ofTokens_eq_ok_iff_depth_le hp).mpr hle
  · rcases hwidens with hsame | hdeep
    · -- the program would be accepted, and so be no deeper than the limit
      have hle : p.depth ≤ (d : Int).toNat := (ofTokens_eq_ok_iff_depth_le hp).mp (hsame ▸ hp)
      rw [Int.toNat_natCast] at hle
      omega
    · exact hdeep

/-- The tokens of `do f { if x { } }`. -/
def closedBranch : List Token :=
  [⟨.keyword .doWord, "do", 1, 1⟩, ⟨.symbol, "f", 1, 4⟩, ⟨.delimiter .leftBrace, "\x7b", 1, 6⟩,
    ⟨.keyword .ifWord, "if", 1, 8⟩, ⟨.symbol, "x", 1, 11⟩, ⟨.delimiter .leftBrace, "\x7b", 1, 13⟩,
    ⟨.delimiter .rightBrace, "\x7d", 1, 15⟩, ⟨.delimiter .rightBrace, "\x7d", 1, 17⟩]

/-- An action with a branch is two deep: with room for two bodies it is read as with room for two
hundred, and with room for one it is nested too deep. -/
theorem ofTokens_limit_closedBranch :
    (2 ≤ 200 ∧ ofTokens 200 closedBranch = ofTokens 2 closedBranch) ∧
      1 ≤ 200 ∧ ∃ p, ofTokens 200 closedBranch = .ok p ∧ 1 < p.depth ∧
        ∃ e, ofTokens 1 closedBranch = .error e ∧ e.tag = .nestingTooDeep := by
  have hok : ∀ d, d = 2 ∨ d = 200 →
      ofTokens (d : Nat) closedBranch = .ok ⟨[.action "f" [.branch (.value "x") []]]⟩ := by
    rintro d (rfl | rfl) <;> cbv
  have hroom : ∀ e, ofTokens (2 : Nat) closedBranch = .error e → e.tag ≠ .nestingTooDeep := by
    intro e he
    rw [hok 2 (.inl rfl)] at he
    cases he
  have hlow := (ofTokens_limit closedBranch 2 200 (by decide)).1 hroom
  have hdeep := ((ofTokens_limit closedBranch 1 200 (by decide)).2 _ (hok 200 (.inr rfl))).2
    (by decide)
  exact ⟨⟨by decide, hlow⟩, by decide, _, hok 200 (.inr rfl), by decide, hdeep⟩

end Program

end BlockLang
