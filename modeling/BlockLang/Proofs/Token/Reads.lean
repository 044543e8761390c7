import BlockLang.Proofs.Grammar.Steps
import BlockLang.Proofs.Token.Cut

/-!
# Texts without comments

A text without comments is read as a list of terminals, blank by blank and lexeme by lexeme. Such
readings compose: behind a text may come any other that does not go on with its last lexeme. A
reading determines what `tokenize` returns up to the locations, and a text whose tokens hold all
its `#` is read so.
-/

namespace BlockLang

/-- What the grammar sees of a lexeme. -/
def lexemeTerminal (k : Kind) (text : List Char) : Terminal :=
  if k = .symbol then .symbol (String.ofList text) else .mark k

theorem Token.terminal_located (k : Kind) (text : List Char) (l : Location) :
    (Token.located k (String.ofList text) l).terminal = lexemeTerminal k text :=
  rfl

/-- A word by itself is cut off as a whole. -/
theorem lexeme_word {v : Vocabulary} {c : Char} {r : List Char} (hc : isWordStart c = true)
    (hr : ∀ d ∈ r, isWordPart d = true) :
    Lexeme v c r (v.kindOf (String.ofList (c :: r))) (c :: r) [] := by
  have hall : ∀ d ∈ c :: r, isWordPart d = true :=
    List.forall_mem_cons.mpr ⟨isWordPart_of_isWordStart hc, hr⟩
  have htake : (c :: r).takeWhile isWordPart = c :: r := List.takeWhile_eq_self_iff.mpr hall
  have hdrop : (c :: r).dropWhile isWordPart = [] := List.dropWhile_eq_nil_iff.mpr hall
  have hword := Lexeme.word (v := v) (r := r) hc
  rwa [htake, hdrop] at hword

/-- **Reading**: the text consists of blanks and of lexemes, whose terminals are `ws`. -/
inductive Reads (v : Vocabulary) : List Char → List Terminal → Prop
  | nil : Reads v [] []
  | blank {c cs ws} : isLayoutBlank c = true → Reads v cs ws → Reads v (c :: cs) ws
  | lexeme {c r k text rest ws} : Lexeme v c r k text rest → k ≠ .endOfInput → Reads v rest ws →
      Reads v (c :: r) (lexemeTerminal k text :: ws)

namespace Reads

variable {v : Vocabulary} {cs ds : List Char} {ws xs : List Terminal}

/-! ## Composition -/

/-- **One text behind another**, which does not go on with the last lexeme of the first. -/
theorem append (h : Reads v cs ws) (hs : Stops ds) (hd : Reads v ds xs) :
    Reads v (cs ++ ds) (ws ++ xs) := by
  induction h with
  | nil => exact hd
  | blank hb _ ih => exact .blank hb ih
  | lexeme hl hk _ ih => exact .lexeme (hl.append_right hs) hk ih

/-- Blanks are not read. -/
theorem blanks {bs : List Char} (hb : ∀ c ∈ bs, isLayoutBlank c = true) (h : Reads v ds xs) :
    Reads v (bs ++ ds) xs := by
  induction bs with
  | nil => exact h
  | cons c bs ih =>
    rw [List.forall_mem_cons] at hb
    exact .blank hb.1 (ih hb.2)

/-- A space is not read. -/
theorem space (h : Reads v ds xs) : Reads v (' ' :: ds) xs := .blank (by decide) h

/-- A character of punctuation is a lexeme, whatever follows it. -/
theorem mark {c : Char} {k : Kind} (hw : isWordStart c = false) (hd : Text.isDigit c = false)
    (hq : ¬ (c = '\x22' ∨ c = '\x27')) (hm : Kind.ofChar? c = some k) (h : Reads v ds xs) :
    Reads v (c :: ds) (.mark k :: xs) := by
  obtain ⟨hsym, hend⟩ := Kind.ofChar?_ne hm
  have hcons := Reads.lexeme (.mark hw hd hq hm) hend h
  rwa [lexemeTerminal, if_neg hsym] at hcons

theorem delimiter (d : Delimiter) (h : Reads v ds xs) :
    Reads v (d.char :: ds) (.mark (.delimiter d) :: xs) := by
  have hclass : isWordStart d.char = false ∧ Text.isDigit d.char = false ∧
      ¬ (d.char = '\x22' ∨ d.char = '\x27') := by
    cases d <;> decide
  exact mark hclass.1 hclass.2.1 hclass.2.2 (Kind.ofChar?_delimiter d) h

theorem operator (o : Operator) (h : Reads v ds xs) :
    Reads v (o.char :: ds) (.mark (.operator o) :: xs) := by
  have hclass : isWordStart o.char = false ∧ Text.isDigit o.char = false ∧
      ¬ (o.char = '\x22' ∨ o.char = '\x27') := by
    cases o <;> decide
  exact mark hclass.1 hclass.2.1 hclass.2.2 (Kind.ofChar?_operator o) h

/-- A word is a lexeme, if what follows does not go on with it. -/
theorem word {c : Char} {r : List Char} (hc : isWordStart c = true)
    (hr : ∀ d ∈ r, isWordPart d = true)
    (hk : v.kindOf (String.ofList (c :: r)) ≠ .endOfInput) (hs : Stops ds) (h : Reads v ds xs) :
    Reads v (c :: (r ++ ds))
      (lexemeTerminal (v.kindOf (String.ofList (c :: r))) (c :: r) :: xs) :=
  .lexeme ((lexeme_word hc hr).append_right hs) hk h

/-- A keyword is a lexeme, if what follows does not go on with it. -/
theorem keyword (k : Keyword) (hs : Stops ds) (h : Reads .canonical ds xs) :
    Reads .canonical (k.spelling.toList ++ ds) (.mark (.keyword k) :: xs) := by
  have hspelling : ∃ c r, k.spelling.toList = c :: r ∧ isWordStart c = true ∧
      (∀ d ∈ r, isWordPart d = true) ∧
      Vocabulary.canonical.kindOf (String.ofList (c :: r)) = .keyword k := by
    cases k <;> exact ⟨_, _, rfl, by decide, List.all_eq_true.mp (by decide), by decide⟩
  obtain ⟨c, r, heq, hc, hr, hk⟩ := hspelling
  have hword := word (v := .canonical) hc hr (by rw [hk]; simp) hs h
  rw [hk] at hword
  rw [heq]
  exact hword

end Reads

/-! ## Tokens -/

/-- **How a text is cut**, comments and all: `TokenRun v l cs ts` says that the text `cs`, whose
first character is at the location `l`, has the tokens `ts`. -/
inductive TokenRun (v : Vocabulary) : Location → List Char → List Token → Prop
  | nil {l cs} : (splitLayout cs).2 = [] → TokenRun v l cs []
  | stop {l cs c r text rest} : (splitLayout cs).2 = c :: r →
      Lexeme v c r .endOfInput text rest → TokenRun v l cs []
  | lexeme {l cs c r k text rest ts} : (splitLayout cs).2 = c :: r → Lexeme v c r k text rest →
      k ≠ .endOfInput → TokenRun v ((l.after (splitLayout cs).1).after text) rest ts →
      TokenRun v l cs (.located k (String.ofList text) (l.after (splitLayout cs).1) :: ts)

/-- **How a text is cut or fails to be**: `Scan v l cs x` says that the text `cs`, whose first
character is at the location `l`, comes to `x`, the tokens or the error of a fault. -/
inductive Scan (v : Vocabulary) : Location → List Char → Except SyntaxError (List Token) → Prop
  | nil {l cs} : (splitLayout cs).2 = [] → Scan v l cs (.ok [])
  | stop {l cs c r text rest} : (splitLayout cs).2 = c :: r →
      Lexeme v c r .endOfInput text rest → Scan v l cs (.ok [])
  | fault {l cs c r f} : (splitLayout cs).2 = c :: r → (cutLexeme v c r).verdict = .error f →
      Scan v l cs (.error (f.error (l.after (splitLayout cs).1)))
  | lexeme {l cs c r k text rest x} : (splitLayout cs).2 = c :: r → Lexeme v c r k text rest →
      k ≠ .endOfInput → Scan v ((l.after (splitLayout cs).1).after text) rest x →
      Scan v l cs (x.map (.located k (String.ofList text) (l.after (splitLayout cs).1) :: ·))

section

variable {v : Vocabulary} {c : Char} {r cs text rest : List Char} {k : Kind} {l : Location}

theorem splitLayout_nil : splitLayout [] = ([], []) := rfl

theorem splitLayout_blank (h : isLayoutBlank c = true) :
    splitLayout (c :: cs) = (c :: (splitLayout cs).1, (splitLayout cs).2) := by
  simp [splitLayout, layoutLength, h]

theorem splitLayout_lexeme (hb : isLayoutBlank c = false) (hc : c ≠ '#') :
    splitLayout (c :: cs) = ([], c :: cs) := by
  simp [splitLayout, layoutLength, hb, hc]

/-- The tokens of a text that starts, at the location `start`, with a lexeme. -/
def lexemeTokens (v : Vocabulary) (start : Location) (c : Char) (r : List Char) :
    Except SyntaxError (List Token) :=
  match (cutLexeme v c r).verdict with
  | .error f => .error (f.error start)
  | .ok kind =>
    if kind = .endOfInput then .ok []
    else
      (tokensFrom v (start.after (cutLexeme v c r).text) (cutLexeme v c r).rest).map
        (.located kind (String.ofList (cutLexeme v c r).text) start :: ·)

/-- **The equation of `tokensFrom`**: layout, and what a lexeme and the tokens behind it are. -/
theorem tokensFrom_eq :
    tokensFrom v l cs = match (splitLayout cs).2 with
      | [] => .ok []
      | c :: r => lexemeTokens v (l.after (splitLayout cs).1) c r := by
  rw [tokensFrom]
  split
  · next heq => rw [heq]
  · next c r heq =>
    rw [heq]
    dsimp only [lexemeTokens]
    split
    · next heq' => rw [heq']
    · next heq' =>
      rw [heq']
      dsimp only
      split
      · rfl
      · cases tokensFrom v ((l.after (splitLayout cs).1).after (cutLexeme v c r).text)
          (cutLexeme v c r).rest <;> rfl

theorem tokensFrom_blank (h : isLayoutBlank c = true) :
    tokensFrom v l (c :: cs) = tokensFrom v (l.next c) cs := by
  rw [tokensFrom_eq, tokensFrom_eq, splitLayout_blank h]
  rfl

theorem tokensFrom_lexeme (h : Lexeme v c r k text rest) (hk : k ≠ .endOfInput) :
    tokensFrom v l (c :: r) =
      (tokensFrom v (l.after text) rest).map (.located k (String.ofList text) l :: ·) := by
  obtain ⟨hb, hc⟩ := h.front
  rw [tokensFrom_eq, splitLayout_lexeme hb hc]
  simp only [lexemeTokens, cutLexeme_iff.mpr h, if_neg hk]
  rfl

/-- **What is read is what `tokenize` returns**, wherever the text stands. -/
theorem Reads.tokensFrom {ws : List Terminal} (h : Reads v cs ws) (l : Location) :
    ∃ ts, tokensFrom v l cs = .ok ts ∧ terminals ts = ws := by
  induction h generalizing l with
  | nil => exact ⟨[], by rw [tokensFrom_eq, splitLayout_nil], rfl⟩
  | blank hb _ ih =>
    rw [tokensFrom_blank hb]
    exact ih _
  | @lexeme c r k text rest ws hl hk _ ih =>
    obtain ⟨ts, hts, hws⟩ := ih (l.after text)
    refine ⟨.located k (String.ofList text) l :: ts, ?_, ?_⟩
    · rw [tokensFrom_lexeme hl hk, hts]
      rfl
    · rw [terminals_cons, Token.terminal_located, hws]

/-- **`tokensFrom` scans.** -/
theorem scan_tokensFrom (v : Vocabulary) (l : Location) (cs : List Char) :
    Scan v l cs (tokensFrom v l cs) := by
  -- the induction is on the text left, of which every lexeme takes a character
  induction hn : cs.length using Nat.strongRecOn generalizing cs l with
  | ind n ih =>
    subst hn
    rw [tokensFrom_eq]
    split
    · next heq => exact .nil heq
    · next c r heq =>
      unfold lexemeTokens
      split
      · next f hverdict => exact .fault heq hverdict
      · next k hverdict =>
        have hl : Lexeme v c r k (cutLexeme v c r).text (cutLexeme v c r).rest := by
          rw [← cutLexeme_iff, ← hverdict]
        split
        · next hk => exact .stop heq (hk ▸ hl)
        · next hk =>
          have hlt := length_cutLexeme_rest_lt hverdict
          have hle := length_splitLayout_le cs
          rw [heq] at hle
          exact .lexeme heq hl hk (ih _ (by omega) _ _ rfl)

theorem tokenRun_of_tokensFrom {ts : List Token} (h : tokensFrom v l cs = .ok ts) :
    TokenRun v l cs ts := by
  have hscan := scan_tokensFrom v l cs
  rw [h] at hscan
  generalize hx : (Except.ok ts : Except SyntaxError (List Token)) = x at hscan
  clear h
  induction hscan generalizing ts with
  | nil heq =>
    cases hx
    exact .nil heq
  | stop heq hl =>
    cases hx
    exact .stop heq hl
  | fault => cases hx
  | @lexeme _ _ _ _ _ _ _ x heq hl hk _ ih =>
    cases x with
    | error e => cases hx
    | ok us =>
      cases hx
      exact .lexeme heq hl hk (ih rfl)

/-- No token that was cut off a text is an end mark. -/
theorem TokenRun.endFree {ts : List Token} (h : TokenRun v l cs ts) : EndFree ts := by
  induction h with
  | nil => exact endFree_nil
  | stop => exact endFree_nil
  | lexeme _ _ hk _ ih => exact endFree_cons.mpr ⟨hk, ih⟩

/-- The text of the token is a lexeme of its kind, which does not end the input. -/
def Token.Whole (v : Vocabulary) (t : Token) : Prop :=
  ∃ c r, t.value.toList = c :: r ∧ Lexeme v c r t.kind t.value.toList [] ∧ t.kind ≠ .endOfInput

/-- **The text of a token by itself** is a lexeme. -/
theorem TokenRun.whole_of_mem {ts : List Token} (h : TokenRun v l cs ts) {t : Token}
    (ht : t ∈ ts) : t.Whole v := by
  induction h with
  | nil => cases ht
  | stop => cases ht
  | @lexeme l cs c r k text rest ts _ hl hk _ ih =>
    rcases List.mem_cons.mp ht with rfl | ht
    · obtain ⟨r', htext, hself⟩ := hl.alone
      have hvalue : (Token.located k (String.ofList text) (l.after (splitLayout cs).1)).value.toList
          = text := String.toList_ofList
      exact ⟨c, r', hvalue.trans htext, by rwa [hvalue], hk⟩
    · exact ih ht

/-- **A symbol by itself** is read as itself. -/
theorem TokenRun.reads_symbol {ts : List Token} (h : TokenRun v l cs ts) {t : Token} (ht : t ∈ ts)
    (hsym : t.kind = .symbol) : Reads v t.value.toList [.symbol t.value] := by
  obtain ⟨c, r, htext, hl, hk⟩ := h.whole_of_mem ht
  have hread := Reads.lexeme hl hk .nil
  rwa [← htext, lexemeTerminal, if_pos hsym, String.ofList_toList] at hread

/-! ## Texts whose tokens hold every `#` -/

/-- Layout without a `#` consists of blanks. -/
theorem blank_of_mem_layout (h : '#' ∉ (splitLayout cs).1) :
    ∀ d ∈ (splitLayout cs).1, isLayoutBlank d = true := by
  induction cs with
  | nil =>
    intro d hd
    cases hd
  | cons c cs ih =>
    by_cases hb : isLayoutBlank c = true
    · rw [splitLayout_blank hb] at h ⊢
      rw [List.mem_cons, not_or] at h
      intro d hd
      rcases List.mem_cons.mp hd with rfl | hd
      · exact hb
      · exact ih h.2 d hd
    · by_cases hc : c = '#'
      · subst hc
        have hmem : '#' ∈ (splitLayout ('#' :: cs)).1 := by
          simp [splitLayout, layoutLength, hb]
        exact absurd hmem h
      · rw [splitLayout_lexeme (by simpa using hb) hc]
        intro d hd
        cases hd

/-- The number of `#` in the texts of tokens. -/
def hashes (ts : List Token) : Nat := (ts.map fun t => t.value.toList.count '#').sum

@[simp] theorem hashes_nil : hashes [] = 0 := rfl

@[simp] theorem hashes_cons (t : Token) (ts : List Token) :
    hashes (t :: ts) = t.value.toList.count '#' + hashes ts := rfl

theorem TokenRun.hashes_le {ts : List Token} (h : TokenRun v l cs ts) :
    hashes ts ≤ cs.count '#' := by
  induction h with
  | nil => exact Nat.zero_le _
  | stop => exact Nat.zero_le _
  | @lexeme l cs c r k text rest ts heq hl _ _ ih =>
    have hcs := congrArg (List.count '#') (splitLayout_append cs)
    rw [heq, ← hl.whole, List.count_append, List.count_append] at hcs
    simp only [hashes_cons, Token.located, String.toList_ofList]
    omega

/-- **A text is read without comments** if every `#` in it belongs to a token, unless a word ends
it early. -/
theorem TokenRun.reads {ts : List Token} (h : TokenRun v l cs ts)
    (hv : ∀ word, v.kindOf word ≠ .endOfInput) (hc : cs.count '#' ≤ hashes ts) :
    Reads v cs (terminals ts) := by
  induction h with
  | @nil l cs heq =>
    have hcs := splitLayout_append cs
    rw [heq, List.append_nil] at hcs
    have hno : '#' ∉ (splitLayout cs).1 := by
      rw [hcs]
      exact List.count_eq_zero.mp (Nat.le_zero.mp hc)
    have hread := Reads.blanks (v := v) (blank_of_mem_layout hno) .nil
    rwa [hcs, List.append_nil] at hread
  | stop _ hl =>
    exact absurd rfl (hl.ne_endOfInput hv)
  | @lexeme l cs c r k text rest ts heq hl hk hrun ih =>
    have hcs := splitLayout_append cs
    have hcount := congrArg (List.count '#') hcs
    rw [heq, ← hl.whole, List.count_append, List.count_append] at hcount
    simp only [hashes_cons, Token.located, String.toList_ofList] at hc
    have hle := hrun.hashes_le
    -- every `#` is in this lexeme or behind it, so the layout in front of it holds none
    have hno : '#' ∉ (splitLayout cs).1 := List.count_eq_zero.mp (by omega)
    have hread := Reads.blanks (blank_of_mem_layout hno) (.lexeme hl hk (ih (by omega)))
    rw [← heq, hcs] at hread
    exact hread

end

end BlockLang
