import BlockLang.Proofs.Token.Positions
import BlockLang.Proofs.Token.Turns

/-!
# Reading a text character by character

Reading token by token, each of them by single characters, comes to the tokens that the text is cut
into, or to the error of its first fault. It ends, as every token but the end mark takes a
character, and it never attempts to read past the end.
-/

namespace BlockLang

open BlockLang.Text

namespace Reader

variable {v : Vocabulary} {rd : Reader} {c : Char} {cs : List Char}

/-! ## What layout reads -/

theorem skipComment_apply (rd : Reader) :
    skipComment rd = .ok () (rd.past (splitComment rd.rest).1) := rfl

theorem skipLayout_apply (rd : Reader) :
    skipLayout rd = .ok () (rd.past (splitLayout rd.rest).1) := rfl

/-- **A comment is read character by character**, up to its line feed or the end of the text. -/
theorem loop_commentTurn_eq_skipComment :
    (do let _ ← loop commentTurn (); return : ReadM Unit) = skipComment := by
  funext rd
  rw [bind_of_ok (loop_commentTurn rd), skipComment_apply]
  rfl

/-- **Layout is read piece by piece**: a blank or a comment, and then the layout behind it. -/
theorem skipLayout_eq (rd : Reader) :
    skipLayout rd = (match rd.peek 0 with
      | none => return
      | some c =>
        if isLayoutBlank c then do
          let _ ← next
          skipLayout
        else if c == '#' then do
          skipComment
          skipLayout
        else return : ReadM Unit) rd := by
  rw [peek_zero]
  cases hrest : rd.rest with
  | nil => rw [skipLayout_apply, hrest]; rfl
  | cons c cs =>
    dsimp only [List.head?_cons]
    split_ifs with hb hc
    · rw [bind_of_ok (next_of_rest hrest), skipLayout_apply, skipLayout_apply, hrest,
        splitLayout_blank hb, rest_past_cons hrest, ← past_append]
      rfl
    · obtain rfl : c = '#' := by simpa using hc
      -- the comment is cut off with its mark, which is no line feed
      have hsplit : splitComment ('#' :: cs) = ('#' :: (splitComment cs).1, (splitComment cs).2) :=
        rfl
      have hbehind : (rd.past (splitComment rd.rest).1).rest = (splitComment cs).2 := by
        rw [rest_past (splitComment_append rd.rest).symm, hrest, hsplit]
      rw [bind_of_ok (skipComment_apply rd), skipLayout_apply, skipLayout_apply, hbehind, hrest,
        splitLayout_comment, hsplit, ← past_append]
      rfl
    · rw [skipLayout_apply, hrest, splitLayout_lexeme (by simpa using hb) (by simpa using hc)]
      rfl

/-! ## What a token reads -/

/-- Reads one lexeme by single characters; at the end of the text, the end mark. -/
def readLexeme (v : Vocabulary) : ReadM Token := do
  let rd ← get
  match rd.peek 0 with
  | none => return .endMark rd.location
  | some c =>
    if isWordStart c then
      let word := String.ofList (← loop wordTurn ())
      return .located (v.kindOf word) word rd.location
    else if isDigit c then
      let number ← loop (numberTurn rd.location) false
      return .located .symbol (String.ofList number) rd.location
    else if c == '\x22' || c == '\x27' then
      let text ← readQuoted c
      return .located .symbol (String.ofList text) rd.location
    else match Kind.ofChar? c with
      | some kind =>
        let mark ← next
        return .located kind (String.ofList [mark]) rd.location
      | none => throw ((Fault.strayCharacter c).error rd.location)

/-- Reads one token by single characters. -/
def readToken (v : Vocabulary) : ReadM Token := do
  let _ ← loop layoutTurn false
  readLexeme v

/-- What reading comes to that was to read what `cut` cuts off as a token at `l`. -/
def tokenResult (l : Location) (cut : Cut) (rd : Reader) :
    EStateM.Result SyntaxError Reader Token :=
  match cut.verdict with
  | .ok kind => .ok (Token.located kind (String.ofList cut.text) l) (rd.past cut.text)
  | .error f => .error (f.error l) (rd.past cut.text)

/-- What reading a lexeme comes to: it is cut off as a whole. -/
def lexemeResult (v : Vocabulary) (rd : Reader) : EStateM.Result SyntaxError Reader Token :=
  match rd.rest with
  | [] => .ok (.endMark rd.location) rd
  | c :: cs => tokenResult rd.location (cutLexeme v c cs) rd

/-- What is cut off as a symbol becomes a token. -/
theorem bind_cutResult {x : ReadM (List Char)} {cut : Cut} {l : Location}
    (hx : x rd = cutResult l cut rd) (hcut : ∀ k, cut.verdict = .ok k → k = .symbol) :
    (x >>= fun text => return Token.located .symbol (String.ofList text) l) rd =
      tokenResult l cut rd := by
  rw [cutResult] at hx
  rw [tokenResult]
  cases hverdict : cut.verdict with
  | ok k =>
    rw [hverdict] at hx
    rw [bind_of_ok hx, hcut k hverdict]
    rfl
  | error f =>
    rw [hverdict] at hx
    rw [bind_of_error hx]

theorem readLexeme_eq (v : Vocabulary) (rd : Reader) : readLexeme v rd = lexemeResult v rd := by
  unfold readLexeme lexemeResult
  rw [bind_of_ok (get_eq rd), peek_zero]
  cases hrest : rd.rest with
  | nil => rfl
  | cons c cs =>
    dsimp only [List.head?_cons]
    fun_cases cutLexeme v c cs with
    | case1 hw =>
      rw [if_pos hw, bind_of_ok (loop_wordTurn rd), hrest]
      rfl
    | case2 hw hd =>
      rw [if_neg hw, if_pos hd]
      refine bind_cutResult (by rw [loop_numberTurn, hrest]) fun k hk => ?_
      have hcut : cutNumber (c :: cs) =
          ⟨.ok k, (cutNumber (c :: cs)).text, (cutNumber (c :: cs)).rest⟩ := by rw [← hk]
      exact cutNumber_kind hcut
    | case3 hw hd hq =>
      have hquote : c = '\x22' ∨ c = '\x27' := by simpa using hq
      have hbackslash : c ≠ '\\' := by rcases hquote with rfl | rfl <;> decide
      rw [if_neg hw, if_neg hd, if_pos hq]
      refine bind_cutResult (readQuoted_eq hbackslash hrest) fun k hk => ?_
      dsimp only [cutQuoted] at hk
      split at hk
      · cases hk
        rfl
      · cases hk
    | case4 hw hd hq kind hmark =>
      rw [if_neg hw, if_neg hd, if_neg hq]
      simp only [hmark]
      rw [bind_of_ok (next_of_rest hrest)]
      rfl
    | case5 hw hd hq hmark =>
      rw [if_neg hw, if_neg hd, if_neg hq]
      simp only [hmark]
      rfl

theorem nextToken_eq (v : Vocabulary) (rd : Reader) :
    nextToken v rd = lexemeResult v (rd.past (splitLayout rd.rest).1) := by
  unfold lexemeResult
  simp only [nextToken, skipLayout, modify, modifyGet, MonadStateOf.modifyGet, EStateM.modifyGet,
    get, getThe, MonadStateOf.get, EStateM.get, bind, EStateM.bind]
  cases (rd.past (splitLayout rd.rest).1).rest with
  | nil => rfl
  | cons c cs =>
    simp only [set, MonadStateOf.set, tokenResult]
    cases (cutLexeme v c cs).verdict <;> rfl

/-- **Reading a token character by character is cutting it off as a whole.** -/
theorem readToken_eq (v : Vocabulary) : readToken v = nextToken v := by
  funext rd
  rw [nextToken_eq, ← readLexeme_eq]
  simp only [readToken, bind, EStateM.bind, loop_layoutTurn false rfl]
  rfl

/-! ## What a text reads -/

theorem rest_past_layout (rd : Reader) :
    (rd.past (splitLayout rd.rest).1).rest = (splitLayout rd.rest).2 :=
  rest_past (splitLayout_append _).symm

theorem rest_past_lexeme (h : (splitLayout rd.rest).2 = c :: cs) :
    ((rd.past (splitLayout rd.rest).1).past (cutLexeme v c cs).text).rest =
      (cutLexeme v c cs).rest :=
  rest_past (by rw [rest_past_layout, h, cutLexeme_append])

/-- **The tokens of a text are the next one and those behind it.** -/
theorem tokensFrom_nextToken (v : Vocabulary) (rd : Reader) :
    tokensFrom v rd.location rd.rest = match nextToken v rd with
      | .error e _ => .error e
      | .ok t rd' =>
        if t.kind = .endOfInput then .ok []
        else (tokensFrom v rd'.location rd'.rest).map (t :: ·) := by
  rw [tokensFrom_eq, nextToken_eq, lexemeResult, rest_past_layout]
  cases hlayout : (splitLayout rd.rest).2 with
  | nil => rfl
  | cons c cs =>
    dsimp only [lexemeTokens, tokenResult]
    cases (cutLexeme v c cs).verdict with
    | error f => rfl
    | ok k =>
      dsimp only
      rw [rest_past_lexeme hlayout]
      rfl

/-- Every token but the end mark leaves less to read. -/
theorem length_rest_lt {t : Token} {rd' : Reader} (h : nextToken v rd = .ok t rd')
    (hk : t.kind ≠ .endOfInput) : rd'.rest.length < rd.rest.length := by
  rw [nextToken_eq, lexemeResult, rest_past_layout] at h
  cases hlayout : (splitLayout rd.rest).2 with
  | nil =>
    rw [hlayout] at h
    cases h
    exact absurd rfl hk
  | cons c cs =>
    have hle := length_splitLayout_le rd.rest
    rw [hlayout] at h hle
    dsimp only [tokenResult] at h
    cases hverdict : (cutLexeme v c cs).verdict with
    | error f =>
      rw [hverdict] at h
      cases h
    | ok k =>
      rw [hverdict] at h
      cases h
      have hlt := length_cutLexeme_rest_lt hverdict
      rw [rest_past_lexeme hlayout]
      omega

/-- Reads the tokens up to the end mark by single characters. -/
def readTokens (v : Vocabulary) (rd : Reader) : EStateM.Result SyntaxError Reader (List Token) :=
  match _read : readToken v rd with
  | .error e rd' => .error e rd'
  | .ok t rd' =>
    if _more : t.kind = .endOfInput then .ok [] rd'
    else match readTokens v rd' with
      | .error e rd'' => .error e rd''
      | .ok ts rd'' => .ok (t :: ts) rd''
termination_by rd.rest.length
decreasing_by
  rw [readToken_eq] at _read
  exact length_rest_lt _read _more

/-- What a reading comes to, wherever it stands then. -/
def outcome {α : Type} : EStateM.Result SyntaxError Reader α → Except SyntaxError α
  | .ok a _ => .ok a
  | .error e _ => .error e

/-- **Reading a text character by character comes to its tokens**, or to the error of its first
fault. -/
theorem outcome_readTokens (v : Vocabulary) (rd : Reader) :
    outcome (readTokens v rd) = tokensFrom v rd.location rd.rest := by
  -- both sides go on behind the next token, wherever the reader stands
  fun_induction readTokens v rd with
  | case1 rd e rd' hread =>
    rw [readToken_eq] at hread
    rw [tokensFrom_nextToken, hread]
    rfl
  | case2 rd t rd' hread hend =>
    rw [readToken_eq] at hread
    simp only [tokensFrom_nextToken v rd, hread, if_pos hend, outcome]
  | case3 rd t rd' hread hmore e rd'' hrest ih =>
    rw [readToken_eq] at hread
    simp only [tokensFrom_nextToken v rd, hread, if_neg hmore, ← ih, hrest, outcome, Except.map]
  | case4 rd t rd' hread hmore ts rd'' hrest ih =>
    rw [readToken_eq] at hread
    simp only [tokensFrom_nextToken v rd, hread, if_neg hmore, ← ih, hrest, outcome, Except.map]

end Reader

/-! ## Why a text cannot be cut -/

theorem head?_append_text {s : String} {c : Char} (h : s.toList.head? = some c) (t : String) :
    (s ++ t).toList.head? = some c := by
  rw [String.toList_append, List.head?_append, h, Option.some_or]

/-- The messages of faults start with one of two letters. -/
theorem Fault.head?_message (f : Fault) (l : Location) :
    (f.message l).toList.head? = some 'I' ∨ (f.message l).toList.head? = some 'U' := by
  cases f with
  | malformedNumber =>
    exact .inl (head?_append_text (head?_append_text (head?_append_text rfl _) _) _)
  | unterminatedText =>
    exact .inr (head?_append_text (head?_append_text (head?_append_text rfl _) _) _)
  | strayCharacter c =>
    refine .inr (head?_append_text (head?_append_text (head?_append_text ?_ _) _) _)
    exact head?_append_text (head?_append_text rfl _) _

/-- No fault is an attempt to read past the end. -/
theorem Fault.error_ne_next (f : Fault) (l : Location) (rd rd' : Reader) :
    Reader.next rd ≠ .error (f.error l) rd' := by
  intro h
  simp only [Reader.next, get, getThe, MonadStateOf.get, EStateM.get, bind, EStateM.bind] at h
  cases hget : rd.text[rd.position]? with
  | some c =>
    rw [hget] at h
    cases h
  | none =>
    rw [hget] at h
    injection h with herror
    have hmessage : s!"Attempted to read past end of source at position {rd.position}" =
        f.message l := congrArg SyntaxError.message herror
    have hhead := f.head?_message l
    rw [← hmessage, head?_append_text (c := 'A') rfl _] at hhead
    rcases hhead with hhead | hhead <;> cases hhead

/-- **Cutting a text fails only for a named reason, at the first bad lexeme.** A text can be read
character by character, and that ends, with its tokens or with an error. An error is at a place up
to which the text can be cut and where it shows a fault, and it is that fault's. It never says that
the end was read past. -/
theorem tokenize_fails_for_reason (v : Vocabulary) (s : String) :
    Reader.outcome (Reader.readTokens v { text := s.toList }) = tokenize v s ∧
      ∀ e, tokenize v s = .error e →
        (∃ (k : Nat) (f : Fault), (∃ ts, tokenize v (String.ofList (s.toList.take k)) = .ok ts) ∧
          f.Shows (s.toList.drop k) ∧
          e = f.error ⟨1 + (s.toList.take k).count '\n',
            1 + (lastLine (s.toList.take k)).length⟩) ∧
        ∀ rd rd', Reader.next rd ≠ .error e rd' := by
  refine ⟨Reader.outcome_readTokens v _, fun e h => ?_⟩
  obtain ⟨before, c, rest, f, hfault, rfl⟩ := exists_firstFault h
  refine ⟨⟨before.length, f, ?_, ?_, ?_⟩, f.error_ne_next _⟩
  · rw [hfault.whole, List.take_left, tokenize, String.toList_ofList]
    exact hfault.cut .start
  · rw [hfault.whole, List.drop_left]
    exact (cutLexeme_error_iff hfault.front).mp hfault.fault
  · rw [hfault.whole, List.take_left, Location.after_start]

/-- A comment, and a quoted text that ends with a backslash. -/
theorem tokenize_fails_for_reason_backslash :
    ∃ e, tokenize .canonical "# b\n 'c\\" = .error e ∧
      (∃ (k : Nat) (f : Fault),
        (∃ ts, tokenize .canonical (String.ofList ("# b\n 'c\\".toList.take k)) = .ok ts) ∧
        f.Shows ("# b\n 'c\\".toList.drop k) ∧
        e = f.error ⟨1 + ("# b\n 'c\\".toList.take k).count '\n',
          1 + (lastLine ("# b\n 'c\\".toList.take k)).length⟩) ∧
      ∀ rd rd', Reader.next rd ≠ .error e rd' := by
  have hlayout : splitLayout "# b\n 'c\\".toList = ("# b\n ".toList, "'c\\".toList) := by decide
  have h : tokenize .canonical "# b\n 'c\\" = .error (Fault.unterminatedText.error ⟨2, 2⟩) := by
    rw [tokenize, tokensFrom_eq, hlayout]
    rfl
  exact ⟨_, h, (tokenize_fails_for_reason _ _).2 _ h⟩

end BlockLang
