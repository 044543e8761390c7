import BlockLang.Proofs.Token.Positions

/-!
# Texts one below the other

A line feed ends whatever lexeme or comment stands in front of it. So a text below another is cut as
it is by itself, only that its locations are as many lines further down.
-/

namespace BlockLang

/-! ## Further down -/

/-- The location `n` lines further down. -/
def Location.down (n : Int) (l : Location) : Location := ⟨l.line + n, l.col⟩

/-- The token `n` lines further down. -/
def Token.down (n : Int) (t : Token) : Token := { t with line := t.line + n }

/-- **The same error `n` lines further down.** Only the message of a lexical error names its
location. -/
structure SyntaxError.Down (n : Int) (e e' : SyntaxError) : Prop where
  tag : e'.tag = e.tag
  line : e'.line = e.line + n
  col : e'.col = e.col
  message : e.tag ≠ .lexical → e'.message = e.message

theorem Location.after_down (n : Int) (l : Location) (cs : List Char) :
    (l.down n).after cs = (l.after cs).down n := by
  induction cs generalizing l with
  | nil => rfl
  | cons c cs ih =>
    have hnext : (l.down n).next c = (l.next c).down n := by
      unfold next down
      split
      · simp [Int.add_right_comm]
      · rfl
    rw [after, List.foldl_cons, hnext]
    exact ih _

theorem Fault.down (n : Int) (f : Fault) (l : Location) :
    SyntaxError.Down n (f.error l) (f.error (l.down n)) where
  tag := rfl
  line := rfl
  col := rfl
  message h := absurd rfl h

/-- **A text further down** has the same tokens further down, or the same error. -/
theorem tokensFrom_down (v : Vocabulary) (n : Int) (l : Location) (cs : List Char) :
    (∃ ts, tokensFrom v l cs = .ok ts ∧ tokensFrom v (l.down n) cs = .ok (ts.map (Token.down n))) ∨
      ∃ e e', tokensFrom v l cs = .error e ∧ tokensFrom v (l.down n) cs = .error e' ∧
        SyntaxError.Down n e e' := by
  have hscan := scan_tokensFrom v l cs
  generalize tokensFrom v l cs = x at hscan ⊢
  induction hscan with
  | nil heq => exact .inl ⟨[], rfl, by rw [tokensFrom_eq, heq]; rfl⟩
  | stop heq hl =>
    refine .inl ⟨[], rfl, ?_⟩
    rw [tokensFrom_eq, heq]
    simp only [lexemeTokens, cutLexeme_iff.mpr hl, if_true]
    rfl
  | @fault l cs c r f heq hverdict =>
    refine .inr ⟨_, _, rfl, ?_, f.down n _⟩
    rw [tokensFrom_eq, heq, Location.after_down]
    simp only [lexemeTokens, hverdict]
  | @lexeme l cs c r k text rest x heq hl hk _ ih =>
    have hstep : tokensFrom v (l.down n) cs =
        (tokensFrom v (((l.after (splitLayout cs).1).after text).down n) rest).map
          (.located k (String.ofList text) ((l.after (splitLayout cs).1).down n) :: ·) := by
      rw [tokensFrom_eq, heq, Location.after_down]
      simp only [lexemeTokens, cutLexeme_iff.mpr hl, if_neg hk, Location.after_down]
    rw [hstep]
    rcases ih with ⟨ts, rfl, hdown⟩ | ⟨e, e', rfl, hdown, hrel⟩
    · rw [hdown]
      exact .inl ⟨_, rfl, rfl⟩
    · rw [hdown]
      exact .inr ⟨e, e', rfl, rfl, hrel⟩

/-! ## The seam -/

/-- Layout in front of a text moves it. -/
theorem Layout.tokensFrom_append {gap : List Char} (h : Layout gap) (v : Vocabulary) (l : Location)
    (cs : List Char) : tokensFrom v l (gap ++ cs) = tokensFrom v (l.after gap) cs := by
  rw [tokensFrom_eq, tokensFrom_eq, h.splitLayout_append, Location.after_append]

/-- **A text below another**: the tokens of the upper one, and those of the lower one at the place
where it starts. -/
theorem TokenRun.tokensFrom_below {v : Vocabulary} (hv : ∀ word, v.kindOf word ≠ .endOfInput)
    {l : Location} {cs : List Char} {ts : List Token} (h : TokenRun v l cs ts) (ds : List Char) :
    tokensFrom v l (cs ++ '\n' :: ds) =
      (tokensFrom v (l.after (cs ++ ['\n'])) ds).map (ts ++ ·) := by
  induction h with
  | @nil l cs heq =>
    have hlayout := (finalLayout_of_splitLayout heq).lineFeed.tokensFrom_append v l ds
    rw [List.append_assoc] at hlayout
    refine hlayout.trans ?_
    cases tokensFrom v (l.after (cs ++ ['\n'])) ds <;> rfl
  | stop _ hl => exact absurd rfl (hl.ne_endOfInput hv)
  | @lexeme l cs c r k text rest ts heq hl hk _ ih =>
    have hwhole := hl.whole_text heq
    have hseam : cs ++ '\n' :: ds = (splitLayout cs).1 ++ c :: (r ++ '\n' :: ds) := by
      rw [← List.cons_append, ← heq, ← List.append_assoc, splitLayout_append]
    have hstart : l.after (cs ++ ['\n']) =
        ((l.after (splitLayout cs).1).after text).after (rest ++ ['\n']) := by
      rw [← Location.after_append, ← Location.after_append, ← List.append_assoc,
        ← List.append_assoc, hwhole]
    -- the line feed stops the lexeme, if it is the last one
    have hstops : Stops ('\n' :: ds) := stops_cons.mpr (by decide)
    rw [hseam, (layout_of_splitLayout heq).tokensFrom_append,
      tokensFrom_lexeme (hl.append_right hstops) hk, ih, hstart]
    cases tokensFrom v (((l.after (splitLayout cs).1).after text).after (rest ++ ['\n'])) ds <;> rfl

/-- **The text `ds` below the text `cs`** starts as many lines down as `cs` has line feeds, and one
more. -/
theorem Location.after_below (cs : List Char) :
    Location.start.after (cs ++ ['\n']) = Location.start.down (cs.count '\n' + 1) := by
  rw [after_start]
  simp [down, start, lastLine, List.count_append]

/-- **Cutting a text below another**, canonically. -/
theorem tokenize_below {s t : String} {ts : List Token} (h : tokenize .canonical s = .ok ts) :
    (∃ us, tokenize .canonical t = .ok us ∧
        tokenize .canonical (s ++ "\n" ++ t) =
          .ok (ts ++ us.map (Token.down (s.toList.count '\n' + 1)))) ∨
      ∃ e e', tokenize .canonical t = .error e ∧ tokenize .canonical (s ++ "\n" ++ t) = .error e' ∧
        SyntaxError.Down (s.toList.count '\n' + 1) e e' := by
  have hlist : (s ++ "\n" ++ t).toList = s.toList ++ '\n' :: t.toList := by simp
  have hbelow := (tokenRun_of_tokensFrom h).tokensFrom_below Vocabulary.kindOf_canonical_ne t.toList
  rw [Location.after_below, ← hlist] at hbelow
  unfold tokenize
  rcases tokensFrom_down .canonical (s.toList.count '\n' + 1) .start t.toList with
    ⟨us, hus, hdown⟩ | ⟨e, e', he, hdown, hrel⟩
  · rw [hdown] at hbelow
    exact .inl ⟨us, hus, hbelow⟩
  · rw [hdown] at hbelow
    exact .inr ⟨e, e', he, hbelow, hrel⟩

end BlockLang
