import BlockLang.Proofs.Lookahead.Rules

/-!
# Programs, one token ahead

Every parse of the grammar is steady, being predictive. Bodies are where the limit comes in: a parse
with more room repeats what one with less room does, as long as the error of a body that is one too
many does not count.
-/

namespace BlockLang

namespace Parse

variable {Q : SyntaxError → Prop} (hQ : ∀ e, Q e → e.tag ≠ .incompleteInput)
  (hdeep : ∀ e, Q e → e.tag ≠ .nestingTooDeep)

include hQ

/-! ## Instructions -/

section

variable {inner inner' : String → Parse (List Instruction)}

theorem steady_foreach (h : ∀ what, Steady Q (inner what) (inner' what)) :
    Steady Q (foreach inner) (foreach inner') := by
  have hclauses : Steady Q (foreachClauses inner) (foreachClauses inner') :=
    (predictive_loopNames.steady hQ).bind fun _ =>
      .skip ((predictive_collections.steady hQ).bind fun _ => (h _).map _)
  rw [foreach_eq, foreach_eq]
  refine .skip (steady_requireMore hQ _ fun t => ?_)
  by_cases ht : t.kind = .symbol
  · rw [if_pos ht, if_pos ht]
    exact .inl hclauses
  · rw [if_neg ht, if_neg ht]
    exact .inr (refuses_throw _ _ t)

/-- **An instruction** is steady if its bodies are. -/
theorem steady_instructionWith (h : ∀ what, Steady Q (inner what) (inner' what)) :
    Steady Q (instructionWith inner) (instructionWith inner') := by
  refine steady_requireMore hQ _ fun t => ?_
  cases hk : t.kind with
  | keyword k =>
    cases k with
    | create => exact .inl (predictive_creation.steady hQ)
    | ifWord => exact .inl (.skip ((predictive_expression.steady hQ).bind fun _ => (h _).map _))
    | foreach => exact .inl (steady_foreach hQ h)
    | forWord =>
      exact .inl (.skip ((predictive_declaration.steady hQ).bind fun _ =>
        (steady_expect hQ _ _).bind fun _ => (predictive_expression.steady hQ).bind fun _ =>
          (steady_expect hQ _ _).bind fun _ => (predictive_progression.steady hQ).bind fun _ =>
            (h _).map _))
    | letWord => exact .inl ((predictive_declaration.map _).steady hQ)
    | _ => exact .inr (refuses_throw _ _ t)
  | _ => exact .inr (refuses_throw _ _ t)

theorem steady_bodyStep (what : String) (h : ∀ what, Steady Q (inner what) (inner' what)) :
    Steady Q (bodyStep inner what) (bodyStep inner' what) :=
  .sees _ (.pure none) (steady_requireMore hQ _ fun _ =>
    .inl ((steady_instructionWith hQ h).map some))

end

include hdeep

/-- **A body with more room** repeats what one with less room does. -/
theorem steady_bodyWithin (limit limit' : Int) {room room' : Nat} (what : String)
    (hroom : room ≤ room') :
    Steady Q (bodyWithin limit room what) (bodyWithin limit' room' what) := by
  induction room generalizing room' what with
  | zero =>
    -- a body that is one too many fails behind its brace, with an error that does not count
    have hopen : ∀ g : Token → Parse (List Instruction), Steady Q (bodyWithin limit 0 what)
        (expect (.delimiter .leftBrace) s!"to open {what}" >>= g) := fun g =>
      steady_expect_bind hQ _ _ fun t =>
        .inl (.of_error fun c => ⟨tooDeep what limit t, _, rfl, fun h => hdeep _ h rfl⟩)
    cases room' <;> exact hopen _
  | succ room ih =>
    obtain ⟨room', rfl⟩ : ∃ n, room' = n + 1 := ⟨room' - 1, by omega⟩
    have hstep := steady_bodyStep hQ what fun what => ih what (Nat.le_of_succ_le_succ hroom)
    have hmany := hstep.many
      (productive_bodyStep (predictive_bodyWithin limit room) (recognizes_bodyWithin limit room)
        what)
    exact (steady_expect hQ _ _).bind fun _ => hmany.deeper.bind fun _ => .skip (.pure _)

/-! ## Blocks -/

section

variable {limit limit' : Int} (hlimit : limit.toNat ≤ limit'.toNat)

include hlimit

theorem steady_body (what : String) : Steady Q (body limit what) (body limit' what) :=
  steady_bodyWithin hQ hdeep limit limit' what hlimit

/-- A block begins at a token, which it reads. -/
theorem steady_blockStep : Steady Q (blockStep limit) (blockStep limit') := by
  have hbody := steady_body hQ hdeep hlimit
  rw [blockStep_eq, blockStep_eq]
  refine .peek (.pure none) fun t => ?_
  have hfail : Refuses t
      (skip >>= fun _ => throw (.about .unexpectedToken s!"Unexpected token: {t.value}" t) >>=
        fun b : Block => pure (some b))
      (skip >>= fun _ => throw (.about .unexpectedToken s!"Unexpected token: {t.value}" t) >>=
        fun b : Block => pure (some b)) :=
    ⟨_, rfl, fun c => ⟨⟨_, rfl⟩, _, rfl⟩⟩
  dsimp only [blockBehind]
  cases hk : t.kind with
  | keyword k =>
    cases k with
    | data => exact .inl (.skip ((predictive_data.map some).steady hQ))
    | group => exact .inl (.skip ((predictive_group.map some).steady hQ))
    | doWord =>
      have haction : Steady Q (action limit) (action limit') :=
        (Predictive.steady hQ (.expectSymbol (by decide) _)).bind fun _ => (hbody _).map _
      exact .inl (.skip (haction.map some))
    | run =>
      have hrun : Steady Q (run limit) (run limit') :=
        (steady_expect hQ _ _).bind fun _ => (predictive_actions.steady hQ).bind fun _ =>
          .skip ((hbody _).map _)
      exact .inl (.skip (hrun.map some))
    | _ => exact .inr hfail
  | _ => exact .inr hfail

/-- **A program is steady**, also under a higher limit. -/
theorem steady_program : Steady Q (program limit) (program limit') :=
  ((steady_blockStep hQ hdeep hlimit).many (productive_blockStep limit)).map Program.mk

end

end Parse

namespace Program

/-- What is denied to a token list is denied by the parse of a program. -/
theorem ofTokens_eq_error {limit : Int} {ts : List Token} {e : SyntaxError} :
    ofTokens limit ts = .error e ↔ ∃ c, Parse.program limit ⟨[], ts, 0⟩ = .error e c := by
  unfold ofTokens
  cases Parse.program limit ⟨[], ts, 0⟩ <;> simp

/-- **An error stays.** If a token list is refused, and not for want of tokens or of room for its
bodies, then so is every list that is the same up to the token that the error is about, under any
limit that is as high. -/
theorem ofTokens_error_stays {limit limit' : Int} {ts : List Token} {e : SyntaxError}
    (he : EndFree ts) (hlimit : limit.toNat ≤ limit'.toNat) (h : ofTokens limit ts = .error e)
    (hinput : e.tag ≠ .incompleteInput) (hdeep : e.tag ≠ .nestingTooDeep) :
    ∃ us t post, ts = us ++ t :: post ∧ e.token = some t ∧
      ∀ xs, ofTokens limit' (us ++ t :: xs) = .error e := by
  have hsteady : Parse.Steady (fun e => e.tag ≠ .incompleteInput ∧ e.tag ≠ .nestingTooDeep)
      (Parse.program limit) (Parse.program limit') :=
    Parse.steady_program (fun _ h => h.1) (fun _ h => h.2) hlimit
  obtain ⟨c, hc⟩ := ofTokens_eq_error.mp h
  obtain ⟨us, t, post, hts, htok, hrun⟩ := hsteady.error (c := ⟨[], ts, 0⟩) he hc ⟨hinput, hdeep⟩
  exact ⟨us, t, post, hts, htok, fun xs => ofTokens_eq_error.mpr (hrun xs)⟩

end Program

end BlockLang
