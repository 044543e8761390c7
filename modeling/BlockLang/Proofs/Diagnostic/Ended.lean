import BlockLang.Proofs.Lookahead.Earliest
import BlockLang.Proofs.Lookahead.Places
import BlockLang.Proofs.Lookahead.Terminals
import BlockLang.Proofs.Token.Stepwise

/-!
# Where an input ended

An input that ended too early is reported just behind its last token. The place is told by where
that token starts and by the length of its text, as if the token were all on one line. That is where
a reader stands behind the token, unless the token is a quoted text with a line feed in it.
-/

namespace BlockLang

/-! ## Behind a text -/

namespace Location

/-- A text moves down by its line feeds. -/
theorem after_line (l : Location) (cs : List Char) :
    (l.after cs).line = l.line + cs.count '\n' := by
  induction cs generalizing l with
  | nil => simp [after]
  | cons c cs ih =>
    have hstep : l.after (c :: cs) = (l.next c).after cs := rfl
    rw [hstep, ih]
    by_cases hc : c = '\n'
    · simp [next, hc]
      omega
    · simp [next, hc]

/-- A text without a line feed moves on by its length. -/
theorem after_col (l : Location) {cs : List Char} (h : '\n' ∉ cs) :
    (l.after cs).col = l.col + cs.length := by
  induction cs generalizing l with
  | nil => simp [after]
  | cons c cs ih =>
    rw [List.mem_cons, not_or] at h
    have hstep : l.after (c :: cs) = (l.next c).after cs := rfl
    have hc : c ≠ '\n' := Ne.symm h.1
    rw [hstep, ih _ h.2]
    simp [next, hc]
    omega

/-- **The place behind a text** is on the same line, by the length of the text, exactly if there is
no line feed in it. -/
theorem after_eq_iff (l : Location) (cs : List Char) :
    (l.line = (l.after cs).line ∧ l.col + cs.length = (l.after cs).col) ↔ '\n' ∉ cs := by
  constructor
  · rintro ⟨hline, -⟩ hmem
    have hcount := List.count_pos_iff.mpr hmem
    rw [after_line] at hline
    omega
  · intro h
    rw [after_line, after_col l h, List.count_eq_zero.mpr h]
    simp

end Location

/-! ## Reading token by token -/

namespace Reader

variable {v : Vocabulary} {rd : Reader} {c : Char} {cs r text rest : List Char} {k : Kind}

/-- Reads `n` tokens. -/
def nextTokens (v : Vocabulary) : Nat → ReadM (List Token)
  | 0 => return []
  | n + 1 => return (← nextToken v) :: (← nextTokens v n)

/-- The next token is the next lexeme behind the layout. -/
theorem nextToken_of_lexeme (hlayout : (splitLayout rd.rest).2 = c :: r)
    (hl : Lexeme v c r k text rest) :
    nextToken v rd =
      .ok (.located k (String.ofList text) (rd.location.after (splitLayout rd.rest).1))
        ((rd.past (splitLayout rd.rest).1).past text) := by
  rw [nextToken_eq, lexemeResult, rest_past_layout, hlayout]
  simp only [tokenResult, cutLexeme_iff.mpr hl]
  rfl

end Reader

/-- **Reading the tokens of a text one by one** ends right behind the last of them. -/
theorem TokenRun.nextTokens {v : Vocabulary} {l : Location} {cs : List Char} {ts : List Token}
    (h : TokenRun v l cs ts) {rd : Reader} (hrest : rd.rest = cs) (hl : rd.location = l) :
    ∃ rd', Reader.nextTokens v ts.length rd = .ok ts rd' ∧ ∀ t ∈ ts.getLast?,
      rd'.location = (⟨t.line, t.col⟩ : Location).after t.value.toList := by
  induction h generalizing rd with
  | nil => exact ⟨rd, rfl, by simp⟩
  | stop => exact ⟨rd, rfl, by simp⟩
  | @lexeme l cs c r k text rest ts heq hlex hk _ ih =>
    subst hrest hl
    have hnext := Reader.nextToken_of_lexeme heq hlex
    have hleft : ((rd.past (splitLayout rd.rest).1).past text).rest = rest := by
      refine Reader.rest_past (Reader.rest_past ?_)
      rw [hlex.whole, ← heq, splitLayout_append]
    obtain ⟨rd', hread, hlast⟩ := ih hleft rfl
    refine ⟨rd', ?_, ?_⟩
    · simp only [List.length_cons, Reader.nextTokens, bind, EStateM.bind, hnext, hread]
      rfl
    · cases ts with
      | nil =>
        cases hread
        simp [Token.located, Reader.past]
      | cons u us => simpa using hlast

/-! ## The last token -/

/-- Only what is not about a token says that the input has ended. -/
theorem Parse.invariant_token :
    Invariant (fun _ => True) fun e => e.tag = .incompleteInput → e.token = none where
  advance _ := trivial
  depth _ _ := trivial
  complaint {c tag message ended} htag _ := by
    rw [Cursor.complaint_tag, Cursor.complaint_token]
    cases hc : c.peek with
    | none => exact fun _ => rfl
    | some t =>
      rw [Cursor.front_of_some hc, if_neg (Option.some_ne_none _)]
      rintro rfl
      exact absurd htag (by decide)

namespace Program

variable {v : Vocabulary} {limit : Int} {s : String} {ts : List Token} {e : SyntaxError}

/-- **An input that ended too early** is reported at the line of its last token, and at the column
behind it. -/
theorem ofTokens_ended (he : EndFree ts) (h : ofTokens limit ts = .error e)
    (htag : e.tag = .incompleteInput) :
    ∃ t, ts.getLast? = some t ∧ e.line = t.line ∧ e.col = t.col + t.value.length := by
  have htoken := ofTokens_error_of_invariant Parse.invariant_token trivial h htag
  cases ofTokens_placedIn he h with
  | about _ hsome =>
    rw [htoken] at hsome
    cases hsome
  | ended hlast _ hline hcol => exact ⟨_, hlast, hline, hcol⟩

/-- **Where an input ended.** If a source is refused because it ended too early, then it was cut
into tokens, and the error is on the line of the last one, at the column of its start and as many
columns on as its text is long. A reader that has read the tokens one by one stands at the same
place exactly if the last one has no line feed in its text. -/
theorem ofSource_ended (v : Vocabulary) (limit : Int) (s : String) (e : SyntaxError)
    (h : ofSource v limit s = .error e) (htag : e.tag = .incompleteInput) :
    ∃ ts t rd, tokenize v s = .ok ts ∧ ts.getLast? = some t ∧
      Reader.nextTokens v ts.length { text := s.toList } = .ok ts rd ∧
      e.line = t.line ∧ e.col = t.col + t.value.length ∧
      ((e.line = rd.location.line ∧ e.col = rd.location.col) ↔ '\n' ∉ t.value.toList) := by
  cases hts : tokenize v s with
  | error e' =>
    rw [ofSource_of_tokenize_error hts] at h
    cases h
    obtain ⟨before, c, rest, f, -, rfl⟩ := exists_firstFault hts
    cases htag
  | ok ts =>
    have hrun := tokenRun_of_tokensFrom hts
    rw [ofSource_of_tokenize hts] at h
    obtain ⟨t, hlast, hline, hcol⟩ := ofTokens_ended hrun.endFree h htag
    have hrest : (Reader.mk s.toList 0 .start).rest = s.toList := rfl
    obtain ⟨rd, hread, hplace⟩ := hrun.nextTokens hrest rfl
    refine ⟨ts, t, rd, rfl, hlast, hread, hline, hcol, ?_⟩
    rw [hplace t hlast, hline, hcol]
    exact Location.after_eq_iff ⟨t.line, t.col⟩ t.value.toList

/-- An action whose body is opened and ends there, and a reader right behind its brace. -/
theorem ofSource_ended_openBody :
    ∃ e, ofSource .canonical defaultLimit "do M \x7b" = .error e ∧ e.tag = .incompleteInput ∧
      e.line = 1 ∧ e.col = 7 ∧
      ∃ ts t rd, tokenize .canonical "do M \x7b" = .ok ts ∧ ts.getLast? = some t ∧
        Reader.nextTokens .canonical ts.length { text := "do M \x7b".toList } = .ok ts rd ∧
        e.line = t.line ∧ e.col = t.col + t.value.length ∧
        ((e.line = rd.location.line ∧ e.col = rd.location.col) ↔ '\n' ∉ t.value.toList) := by
  have h : ofSource .canonical defaultLimit "do M \x7b" =
      .error ⟨.incompleteInput, "Unexpected end of input in do body.", none, 1, 7⟩ := by cbv
  exact ⟨_, h, rfl, rfl, rfl, ofSource_ended .canonical defaultLimit _ _ h rfl⟩

/-- **A name of two lines**: the error is on its first line and nine columns in, where the source
has nothing, and the reader stands on the second line. -/
theorem ofSource_ended_twoLines :
    ofSource .canonical defaultLimit "do 'a\nb'" =
        .error ⟨.incompleteInput, "Expected '\x7b' to open do body, got end of input.", none,
          1, 9⟩ ∧
      ∃ ts rd, tokenize .canonical "do 'a\nb'" = .ok ts ∧
        Reader.nextTokens .canonical ts.length { text := "do 'a\nb'".toList } = .ok ts rd ∧
        rd.atEnd = true ∧ rd.location = ⟨2, 3⟩ := by
  refine ⟨by cbv, [⟨.keyword .doWord, "do", 1, 1⟩, ⟨.symbol, "'a\nb'", 1, 4⟩],
    ⟨"do 'a\nb'".toList, 8, ⟨2, 3⟩⟩, by cbv, by cbv, by cbv, rfl⟩

end Program

end BlockLang
