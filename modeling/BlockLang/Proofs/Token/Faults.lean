import BlockLang.Proofs.Token.Seam

/-!
# Faults

A text that cannot be cut into tokens has a first place where no lexeme starts. What is in front of
that place does not depend on what is behind it: cutting the text off there leaves every lexeme as
it is. So the place of a lexical error is the first character of a text that cannot be cut, behind
one that can.
-/

namespace BlockLang

open BlockLang.Text

/-! ## What is behind a lexeme -/

/-- Nothing in `ds` goes on with the lexeme that the character `c` starts. -/
structure Behind (c : Char) (ds : List Char) : Prop where
  word : isWordStart c = true → ∀ d ∈ ds.head?, isWordPart d = false
  number : isWordStart c = false → isDigit c = true →
    (∀ d ∈ ds.head?, isDigit d = false) ∧ startsFraction ds = false

namespace Behind

variable {c : Char} {ds es : List Char}

/-- A text in front of which a lexeme ends may be shorter. -/
theorem of_append (h : Behind c (ds ++ es)) : Behind c ds where
  word hw d hd := h.word hw d (List.mem_head?_append_of_mem_head? hd)
  number hw hc := by
    obtain ⟨hstop, hno⟩ := h.number hw hc
    refine ⟨fun d hd => hstop d (List.mem_head?_append_of_mem_head? hd), ?_⟩
    by_contra hyes
    rw [Bool.not_eq_false] at hyes
    obtain ⟨d, more, rfl, hd⟩ := startsFraction_iff.mp hyes
    have hfraction : startsFraction ('.' :: d :: more ++ es) = true :=
      startsFraction_iff.mpr ⟨d, more ++ es, rfl, hd⟩
    rw [hfraction] at hno
    cases hno

end Behind

namespace Lexeme

variable {v : Vocabulary} {c : Char} {r text rest ds es : List Char} {k : Kind}

/-- A lexeme is as long as it can be. -/
theorem behind (h : Lexeme v c r k text rest) : Behind c rest := by
  cases h with
  | word hw => exact ⟨fun _ => stop_of_dropWhile _, fun hno => by simp [hw] at hno⟩
  | number hw hd h => exact ⟨fun hyes => by simp [hw] at hyes, fun _ _ => cutNumber_rest h⟩
  | quoted hw hd => exact ⟨fun hyes => by simp [hw] at hyes, fun _ hyes => by simp [hd] at hyes⟩
  | mark hw hd => exact ⟨fun hyes => by simp [hw] at hyes, fun _ hyes => by simp [hd] at hyes⟩

/-- A text that is one lexeme is one also in front of what does not go on with it. -/
theorem append_behind (h : Lexeme v c r k text []) (hb : Behind c ds) :
    Lexeme v c (r ++ ds) k text ds := by
  generalize hnil : ([] : List Char) = rest at h
  cases h with
  | word hw =>
    have hstop := hb.word hw
    have hword := Lexeme.word (v := v) (r := r ++ ds) hw
    rw [← List.cons_append, takeWhile_append_of_stop hstop, dropWhile_append_of_stop hstop,
      ← hnil] at hword
    exact hword
  | number hw hd h =>
    subst hnil
    obtain ⟨hstop, hno⟩ := hb.number hw hd
    exact .number hw hd (cutNumber_append_of_stop h hstop hno)
  | quoted hw hd hq hclosed =>
    have happ := (splitQuote_closed hclosed).1 ds
    have hquoted := Lexeme.quoted (v := v) (r := r ++ ds) hw hd hq (by rw [happ])
    rw [happ, ← hnil] at hquoted
    exact hquoted
  | mark hw hd hq heq =>
    subst hnil
    exact .mark hw hd hq heq

/-- **Cutting a text off behind a lexeme** leaves the lexeme as it is. -/
theorem shorten (h : Lexeme v c r k text (ds ++ es)) :
    ∃ r', text ++ ds = c :: r' ∧ Lexeme v c r' k text ds := by
  obtain ⟨r', rfl, hself⟩ := h.alone
  exact ⟨r' ++ ds, rfl, hself.append_behind h.behind.of_append⟩

end Lexeme

/-! ## The first fault -/

/-- Layout by itself has no tokens. -/
theorem Layout.no_tokens {gap : List Char} (h : Layout gap) (v : Vocabulary) (l : Location) :
    tokensFrom v l gap = .ok [] := by
  have happ := h.tokensFrom_append v l []
  rw [List.append_nil] at happ
  rw [happ, tokensFrom_eq, splitLayout_nil]

/-- What is left in front of a lexeme is neither a blank nor a comment. -/
theorem front_of_splitLayout {c : Char} {cs r : List Char} (h : (splitLayout cs).2 = c :: r) :
    isLayoutBlank c = false ∧ c ≠ '#' := by
  have hdrop : ∀ inComment : Bool, cs.drop (layoutLength inComment cs) = c :: r →
      isLayoutBlank c = false ∧ c ≠ '#' := by
    clear h
    intro inComment h
    fun_induction layoutLength inComment cs with
    | case1 => cases h
    | case2 _ _ ih => exact ih h
    | case3 _ _ _ _ _ ih => exact ih h
    | case4 _ _ _ _ _ _ ih => exact ih h
    | case5 inComment d cs hno hb hc =>
      obtain ⟨rfl, -⟩ := List.cons.inj h
      exact ⟨by simpa using hb, by simpa using hc⟩
  exact hdrop false h

/-- **The first fault of a text**: all that is in front of it is cut into tokens, and no lexeme
starts at its first character, which is no layout. -/
structure FirstFault (v : Vocabulary) (cs before : List Char) (c : Char) (rest : List Char)
    (f : Fault) : Prop where
  whole : cs = before ++ c :: rest
  front : isLayoutBlank c = false ∧ c ≠ '#'
  cut (l : Location) : ∃ ts, tokensFrom v l before = .ok ts
  fault : (cutLexeme v c rest).verdict = .error f

namespace FirstFault

variable {v : Vocabulary} {cs before rest : List Char} {c : Char} {f : Fault}

/-- No lexeme starts at the character. -/
theorem not_lexeme (h : FirstFault v cs before c rest f) (k : Kind) (text more : List Char) :
    ¬ Lexeme v c rest k text more := by
  intro hl
  have hfault := h.fault
  rw [cutLexeme_iff.mpr hl] at hfault
  cases hfault

/-- Behind layout and a lexeme, the first fault is the same. -/
theorem behind {c₀ : Char} {r text : List Char} {k : Kind} {all gap : List Char}
    (h : FirstFault v cs before c rest f) (hgap : Layout gap) (hl : Lexeme v c₀ r k text cs)
    (hk : k ≠ .endOfInput) (hall : all = gap ++ (text ++ cs)) :
    FirstFault v all (gap ++ (text ++ before)) c rest f where
  whole := by rw [hall, h.whole, List.append_assoc, List.append_assoc]
  front := h.front
  cut l := by
    rw [h.whole] at hl
    obtain ⟨r', heq, hl'⟩ := hl.shorten
    obtain ⟨ts, hts⟩ := h.cut ((l.after gap).after text)
    rw [hgap.tokensFrom_append, heq, tokensFrom_lexeme hl' hk, hts]
    exact ⟨_, rfl⟩
  fault := h.fault

end FirstFault

/-- **A text that cannot be cut has a first fault**, and its error is the one of that fault, at the
location of that fault. -/
theorem exists_firstFault {v : Vocabulary} {l : Location} {cs : List Char} {e : SyntaxError}
    (h : tokensFrom v l cs = .error e) :
    ∃ before c rest f, FirstFault v cs before c rest f ∧ e = f.error (l.after before) := by
  have hscan := scan_tokensFrom v l cs
  rw [h] at hscan
  generalize hx : (Except.error e : Except SyntaxError (List Token)) = x at hscan
  clear h
  -- the fault is behind the layout, or it is behind the lexeme and found there
  induction hscan with
  | nil => cases hx
  | stop => cases hx
  | @fault l cs c r f heq hverdict =>
    cases hx
    refine ⟨(splitLayout cs).1, c, r, f, ⟨?_, front_of_splitLayout heq, fun l' => ?_, hverdict⟩,
      rfl⟩
    · rw [← heq, splitLayout_append]
    · exact ⟨[], (layout_of_splitLayout heq).no_tokens v l'⟩
  | @lexeme l cs c r k text rest x heq hl hk _ ih =>
    cases x with
    | ok us => cases hx
    | error e' =>
      cases hx
      obtain ⟨before, c', rest', f, hfault, rfl⟩ := ih rfl
      have hwhole := hl.whole_text heq
      rw [List.append_assoc] at hwhole
      refine ⟨_, c', rest', f, hfault.behind (layout_of_splitLayout heq) hl hk hwhole.symm, ?_⟩
      rw [Location.after_append, Location.after_append]

end BlockLang
