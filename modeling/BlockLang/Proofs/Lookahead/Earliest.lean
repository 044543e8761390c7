import BlockLang.Proofs.Lookahead.Program

/-!
# The earliest token

An error of a program is about a token, unless the input has ended. It is found at the first token
at which it can be: what stands in front of that token is accepted or incomplete, and what stands
behind it does not matter. Nothing is read behind an end mark, so all of this holds of token lists
with end marks as well.
-/

namespace BlockLang

namespace Parse

/-- What a predictive parse complains about is a token, or that the input has ended. -/
theorem invariant_tag :
    Invariant (fun _ => True) fun e =>
      e.tag = .incompleteInput ∨ e.tag ∈ SyntaxError.Tag.violations where
  advance _ := trivial
  depth _ _ := trivial
  complaint htag _ := by
    rw [Cursor.complaint_tag]
    split
    · exact .inl rfl
    · exact .inr htag

end Parse

namespace Program

variable {limit : Int} {ts : List Token} {e : SyntaxError}

/-- **Nothing is read behind an end mark.** -/
theorem ofTokens_append_ends {vs : List Token} (h : Ends vs) :
    ofTokens limit (ts ++ vs) = ofTokens limit ts := by
  have hextend : Cursor.mk [] (ts ++ vs) 0 = Cursor.extend ⟨[], ts, 0⟩ vs := rfl
  rcases ofTokens_agree (Parse.simulation_extend h) limit hextend with
    ⟨p, hts, hvs⟩ | ⟨e, e', hts, hvs, rfl⟩
  · exact hvs.trans hts.symm
  · exact hvs.trans hts.symm

/-- **An end mark cuts the input.** What stands behind it plays no part, be it in the program or in
the error, and the mark is like the end of the tokens. -/
theorem ofTokens_endMark (limit : Int) (ts : List Token) (mark : Token) (junk : List Token)
    (hmark : mark.kind = .endOfInput) :
    ofTokens limit (ts ++ mark :: junk) = ofTokens limit ts :=
  ofTokens_append_ends (ends_cons hmark)

/-- An end mark in front of the brace that closes a body leaves the body open, and the error stands
behind the last token in front of the mark. -/
theorem ofTokens_endMark_openBody :
    ofTokens 200 (emptyAction.take 3 ++ ⟨.endOfInput, "EOF", 1, 8⟩ :: emptyAction.drop 3) =
      .error ⟨.incompleteInput, "Unexpected end of input in do body.", none, 1, 7⟩ := by
  rw [ofTokens_endMark 200 (emptyAction.take 3) ⟨.endOfInput, "EOF", 1, 8⟩ (emptyAction.drop 3) rfl]
  cbv

/-- **The errors of a program.** -/
theorem ofTokens_error_tag (h : ofTokens limit ts = .error e) :
    e.tag = .incompleteInput ∨ e.tag ∈ SyntaxError.Tag.violations :=
  ofTokens_error_of_invariant Parse.invariant_tag trivial h

/-- Accepted, or refused only for want of more tokens. -/
def Open (limit : Int) (ts : List Token) : Prop :=
  (∃ p, ofTokens limit ts = .ok p) ∨
    ∃ e, ofTokens limit ts = .error e ∧ e.tag = .incompleteInput

/-- **An error is met again** at its token, whatever comes behind. -/
theorem ofTokens_error_again (he : EndFree ts) (h : ofTokens limit ts = .error e)
    (hi : e.tag ≠ .incompleteInput) :
    ∃ us t post, ts = us ++ t :: post ∧ e.token = some t ∧
      ∀ xs, ofTokens limit (us ++ t :: xs) = .error e := by
  have hsteady := (Parse.predictive_program limit).steady
    (Q := fun e => e.tag ≠ .incompleteInput) fun _ h => h
  obtain ⟨c, hc⟩ := ofTokens_eq_error.mp h
  obtain ⟨us, t, post, hts, htok, hrun⟩ := hsteady.error (c := ⟨[], ts, 0⟩) he hc hi
  exact ⟨us, t, post, hts, htok, fun xs => ofTokens_eq_error.mpr (hrun xs)⟩

/-- What is in front of the token of an error is open, or else the error of that would be met
again. -/
theorem ofTokens_error_open (he : EndFree ts) (h : ofTokens limit ts = .error e)
    (hi : e.tag ≠ .incompleteInput) :
    ∃ us t post, ts = us ++ t :: post ∧ e.token = some t ∧ Open limit us ∧
      ∀ xs, ofTokens limit (us ++ t :: xs) = .error e := by
  -- the induction is on the number of tokens, of which the ones in front of the error are fewer
  induction hn : ts.length using Nat.strongRecOn generalizing ts e with
  | ind n ih =>
    subst hn
    obtain ⟨us, t, post, rfl, htok, hagain⟩ := ofTokens_error_again he h hi
    cases hus : ofTokens limit us with
    | ok p => exact ⟨us, t, post, rfl, htok, .inl ⟨p, hus⟩, hagain⟩
    | error e' =>
      by_cases hi' : e'.tag = .incompleteInput
      · exact ⟨us, t, post, rfl, htok, .inr ⟨e', hus, hi'⟩, hagain⟩
      · have hfree : EndFree us := fun u hu => he u (List.mem_append_left _ hu)
        obtain ⟨ws, u, rest, rfl, htok', hopen, hagain'⟩ :=
          ih us.length (by simp) hfree hus hi' rfl
        -- the error of the tokens in front is the error of all of them
        have hsame := hagain' (rest ++ t :: post)
        simp only [List.append_assoc, List.cons_append] at h hsame ⊢
        obtain rfl : e' = e := by simpa [hsame] using h
        exact ⟨ws, u, _, rfl, htok', hopen, hagain'⟩

/-- **Errors are reported at the earliest token.** An error of a token list, if it is not that the
input ended, has one of the tags of violations. It is about a token in front of which everything is
accepted or incomplete, and it is the error of every token list that is the same up to that
token. -/
theorem ofTokens_error_earliest (d : Nat) (ts : List Token) (e : SyntaxError)
    (h : ofTokens d ts = .error e) (hi : e.tag ≠ .incompleteInput) :
    e.tag ∈ SyntaxError.Tag.violations ∧
      ∃ (k : Nat) (hk : k < ts.length), e.token = some ts[k] ∧ Open d (ts.take k) ∧
        ∀ ext, ofTokens d (ts.take (k + 1) ++ ext) = .error e := by
  refine ⟨(ofTokens_error_tag h).resolve_left hi, ?_⟩
  obtain ⟨vs, tail, rfl, hfree, htail⟩ := exists_append_ends ts
  rw [ofTokens_append_ends htail] at h
  obtain ⟨us, t, post, rfl, htok, hopen, hagain⟩ := ofTokens_error_open hfree h hi
  refine ⟨us.length, by simp, by simpa using htok, ?_, fun ext => ?_⟩
  · simpa using hopen
  · have htake : us.take (us.length + 1) = us := List.take_of_length_le (by omega)
    simpa [List.take_append, htake] using hagain ext

/-- Without room for a body it is refused at its brace, and whatever comes behind that brace. -/
theorem ofTokens_noRoom :
    ∃ e, ofTokens 0 emptyAction = .error e ∧ e.tag = .nestingTooDeep ∧
      ∃ (k : Nat) (hk : k < emptyAction.length), e.token = some emptyAction[k] ∧
        Open 0 (emptyAction.take k) ∧
        ∀ ext, ofTokens 0 (emptyAction.take (k + 1) ++ ext) = .error e := by
  have herror : ofTokens 0 emptyAction =
      .error (Parse.tooDeep "do body" 0 emptyAction[2]) := by cbv
  exact ⟨_, herror, rfl, (ofTokens_error_earliest 0 emptyAction _ herror (by decide)).2⟩

end Program

end BlockLang
