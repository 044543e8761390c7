import BlockLang.Text.Blank
import BlockLang.Token.OfText
import Mathlib

/-!
# Cutting a lexeme

A lexeme is as long as its class allows, so what follows it does not change it as long as it cannot
go on with it, and a lexeme by itself is cut off as a whole.
-/

namespace BlockLang

open BlockLang.Text

/-! ## Runs of characters -/

section

variable {p : Char → Bool} {ds : List Char}

theorem takeWhile_append_of_stop (h : ∀ d ∈ ds.head?, p d = false) (cs : List Char) :
    (cs ++ ds).takeWhile p = cs.takeWhile p := by
  induction cs with
  | nil =>
    cases ds with
    | nil => rfl
    | cons d ds => simp [h d rfl]
  | cons c cs ih => simp only [List.cons_append, List.takeWhile_cons, ih]

theorem dropWhile_append_of_stop (h : ∀ d ∈ ds.head?, p d = false) (cs : List Char) :
    (cs ++ ds).dropWhile p = cs.dropWhile p ++ ds := by
  induction cs with
  | nil =>
    cases ds with
    | nil => rfl
    | cons d ds => simp [h d rfl]
  | cons c cs ih =>
    simp only [List.cons_append, List.dropWhile_cons, ih]
    split <;> rfl

/-- Nothing of a run is behind it. -/
theorem dropWhile_takeWhile_self (cs : List Char) : (cs.takeWhile p).dropWhile p = [] :=
  List.dropWhile_eq_nil_iff.mpr fun _ h => List.mem_takeWhile_imp h

/-- What is behind a run does not go on with it. -/
theorem stop_of_dropWhile (cs : List Char) : ∀ d ∈ (cs.dropWhile p).head?, p d = false := by
  intro d hd
  have hhead := List.head?_dropWhile_not p cs
  rwa [Option.mem_def.mp hd] at hhead

end

/-- Nothing here goes on with a word or a number. -/
def Stops (ds : List Char) : Prop :=
  ∀ d ∈ ds.head?, isWordPart d = false ∧ isDigit d = false ∧ d ≠ '.'

@[simp] theorem stops_nil : Stops [] := by
  intro d h
  cases h

@[simp] theorem stops_cons {d : Char} {ds : List Char} :
    Stops (d :: ds) ↔ isWordPart d = false ∧ isDigit d = false ∧ d ≠ '.' := by
  simp [Stops]

theorem stops_space {ds : List Char} : Stops (' ' :: ds) := stops_cons.mpr (by decide)

/-! ## Numbers -/

theorem cutNumber_of_fraction {cs more : List Char} {d : Char}
    (h : cs.dropWhile isDigit = '.' :: d :: more) (hd : isDigit d = true) :
    cutNumber cs =
      ⟨if startsFraction ((d :: more).dropWhile isDigit) then .error .malformedNumber
        else .ok .symbol,
        cs.takeWhile isDigit ++ '.' :: (d :: more).takeWhile isDigit,
        (d :: more).dropWhile isDigit⟩ := by
  simp only [cutNumber, h, hd, if_true]

theorem cutNumber_of_not_fraction {cs : List Char}
    (h : startsFraction (cs.dropWhile isDigit) = false) :
    cutNumber cs = ⟨.ok .symbol, cs.takeWhile isDigit, cs.dropWhile isDigit⟩ := by
  unfold cutNumber
  split
  · next d more heq =>
    rw [heq] at h
    have hd : ¬ isDigit d = true := by simpa [startsFraction] using h
    rw [if_neg hd, heq]
  · rfl

/-- A fraction is a point and a digit, and the rest. -/
theorem startsFraction_iff {cs : List Char} :
    startsFraction cs = true ↔ ∃ d more, cs = '.' :: d :: more ∧ isDigit d = true := by
  constructor
  · intro h
    unfold startsFraction at h
    split at h
    · exact ⟨_, _, rfl, h⟩
    · cases h
  · rintro ⟨d, more, rfl, hd⟩
    exact hd

/-- What stops a number does not make a fraction. -/
theorem startsFraction_append {cs ds : List Char} (h : startsFraction cs = false) (hs : Stops ds) :
    startsFraction (cs ++ ds) = false := by
  by_contra hyes
  rw [Bool.not_eq_false] at hyes
  obtain ⟨d, more, heq, hd⟩ := startsFraction_iff.mp hyes
  -- the point and the digit stand before or behind the place where the two lists meet
  match cs with
  | [] =>
    obtain rfl : ds = '.' :: d :: more := heq
    exact (stops_cons.mp hs).2.2 rfl
  | [c] =>
    obtain ⟨-, rfl⟩ := List.cons.inj heq
    have hdigit := (stops_cons.mp hs).2.1
    rw [hd] at hdigit
    cases hdigit
  | c :: c' :: cs =>
    injection heq with hc htail
    injection htail with hc' _
    subst hc hc'
    rw [startsFraction_iff.mpr ⟨c', cs, rfl, hd⟩] at h
    cases h

/-- Behind a number there is neither another digit of it nor another point with a digit. -/
theorem cutNumber_rest {cs text rest : List Char} {k : Kind}
    (h : cutNumber cs = ⟨.ok k, text, rest⟩) :
    (∀ d ∈ rest.head?, isDigit d = false) ∧ startsFraction rest = false := by
  by_cases hf : startsFraction (cs.dropWhile isDigit) = true
  · obtain ⟨d, more, heq, hd⟩ := startsFraction_iff.mp hf
    rw [cutNumber_of_fraction heq hd] at h
    injection h with hv ht hr
    -- a second fraction would have made the number malformed
    have hno : startsFraction ((d :: more).dropWhile isDigit) = false := by
      by_contra hyes
      rw [Bool.not_eq_false] at hyes
      rw [if_pos hyes] at hv
      cases hv
    rw [← hr]
    exact ⟨stop_of_dropWhile _, hno⟩
  · rw [Bool.not_eq_true] at hf
    rw [cutNumber_of_not_fraction hf] at h
    injection h with hv ht hr
    rw [← hr]
    exact ⟨stop_of_dropWhile _, hf⟩

/-- A number stays what it is in front of what is neither a digit nor makes a fraction. -/
theorem cutNumber_append_of_stop {cs text rest ds : List Char} {k : Kind}
    (h : cutNumber cs = ⟨.ok k, text, rest⟩) (hstop : ∀ d ∈ ds.head?, isDigit d = false)
    (hno : startsFraction (rest ++ ds) = false) :
    cutNumber (cs ++ ds) = ⟨.ok k, text, rest ++ ds⟩ := by
  have htake := takeWhile_append_of_stop hstop
  have hdrop := dropWhile_append_of_stop hstop
  by_cases hf : startsFraction (cs.dropWhile isDigit) = true
  · obtain ⟨d, more, heq, hd⟩ := startsFraction_iff.mp hf
    have heq' : (cs ++ ds).dropWhile isDigit = '.' :: d :: (more ++ ds) := by
      rw [hdrop, heq]
      rfl
    rw [cutNumber_of_fraction heq hd] at h
    injection h with hv ht hr
    have hk : Except.ok Kind.symbol = (Except.ok k : Except Fault Kind) := by
      split at hv
      · cases hv
      · exact hv
    rw [cutNumber_of_fraction heq' hd, ← List.cons_append, htake, hdrop, htake, ht, hr, hno, ← hk]
    rfl
  · rw [Bool.not_eq_true] at hf
    rw [cutNumber_of_not_fraction hf] at h
    injection h with hv ht hr
    rw [← hr, ← hdrop] at hno
    rw [cutNumber_of_not_fraction hno, htake, hdrop, hv, ht, hr]

theorem cutNumber_append_right {cs text rest ds : List Char} {k : Kind}
    (h : cutNumber cs = ⟨.ok k, text, rest⟩) (hs : Stops ds) :
    cutNumber (cs ++ ds) = ⟨.ok k, text, rest ++ ds⟩ :=
  cutNumber_append_of_stop h (fun d hd => (hs d hd).2.1)
    (startsFraction_append (cutNumber_rest h).2 hs)

/-- A number is a symbol. -/
theorem cutNumber_kind {cs text rest : List Char} {k : Kind}
    (h : cutNumber cs = ⟨.ok k, text, rest⟩) : k = .symbol := by
  have hverdict : (cutNumber cs).verdict = .ok k := by rw [h]
  unfold cutNumber at hverdict
  split at hverdict
  · split at hverdict
    · dsimp only at hverdict
      split at hverdict
      · cases hverdict
      · injection hverdict with hk
        exact hk.symm
    · injection hverdict with hk
      exact hk.symm
  · injection hverdict with hk
    exact hk.symm

/-- A number by itself is cut off as a whole. -/
theorem cutNumber_text {cs text rest : List Char} {k : Kind}
    (h : cutNumber cs = ⟨.ok k, text, rest⟩) : cutNumber text = ⟨.ok k, text, []⟩ := by
  by_cases hf : startsFraction (cs.dropWhile isDigit) = true
  · obtain ⟨d, more, heq, hd⟩ := startsFraction_iff.mp hf
    rw [cutNumber_of_fraction heq hd] at h
    injection h with hv ht hr
    have hk : Except.ok Kind.symbol = (Except.ok k : Except Fault Kind) := by
      split at hv
      · cases hv
      · exact hv
    -- the digits in front of the point stop at it, and those behind it stop at the end
    have hpoint : ∀ c ∈ ('.' :: (d :: more).takeWhile isDigit).head?, isDigit c = false := by
      intro c hc
      cases hc
      decide
    have hfirst : (d :: more).takeWhile isDigit = d :: more.takeWhile isDigit := by
      simp [hd]
    have hrest : (d :: more.takeWhile isDigit).dropWhile isDigit = [] := by
      rw [← hfirst]
      exact dropWhile_takeWhile_self _
    have hdrop : text.dropWhile isDigit = '.' :: d :: more.takeWhile isDigit := by
      rw [← ht, dropWhile_append_of_stop hpoint, dropWhile_takeWhile_self, List.nil_append, hfirst]
    have htake : text.takeWhile isDigit = cs.takeWhile isDigit := by
      rw [← ht, takeWhile_append_of_stop hpoint, List.takeWhile_idem]
    rw [cutNumber_of_fraction hdrop hd, hrest, htake, ← hk]
    rw [← hfirst, List.takeWhile_idem, ht]
    simp [startsFraction]
  · rw [Bool.not_eq_true] at hf
    rw [cutNumber_of_not_fraction hf] at h
    injection h with hv ht hr
    have hdrop : text.dropWhile isDigit = [] := by
      rw [← ht]
      exact dropWhile_takeWhile_self _
    have htake : text.takeWhile isDigit = text := by
      rw [← ht]
      exact List.takeWhile_idem
    rw [cutNumber_of_not_fraction (by rw [hdrop]; rfl), hdrop, htake, hv]

/-! ## Quoted texts -/

/-- Any character but a backslash is looked at by itself. -/
theorem splitQuote_cons {q c : Char} (hc : c ≠ '\\') (cs : List Char) :
    splitQuote q (c :: cs) =
      if c == q then (true, [c], cs)
      else ((splitQuote q cs).1, c :: (splitQuote q cs).2.1, (splitQuote q cs).2.2) := by
  rw [splitQuote.eq_4 q c cs (fun h => absurd h hc) (fun _ _ h => absurd h hc)]

theorem splitQuote_backslash (q c : Char) (cs : List Char) :
    splitQuote q ('\\' :: c :: cs) =
      ((splitQuote q cs).1, '\\' :: c :: (splitQuote q cs).2.1, (splitQuote q cs).2.2) := by
  rw [splitQuote.eq_3]

/-- Behind the cases of a backslash, at the end and in front of a character, there is none. -/
theorem ne_backslash {c : Char} {cs : List Char} (hlast : c = '\\' → cs = [] → False)
    (hmore : ∀ d ds, c = '\\' → cs = d :: ds → False) : c ≠ '\\' := by
  intro hc
  cases cs with
  | nil => exact hlast hc rfl
  | cons d ds => exact hmore d ds hc rfl

/-- **A quoted text ends with its closing quote**, whatever follows it. -/
theorem splitQuote_closed {q : Char} {cs : List Char} (h : (splitQuote q cs).1 = true) :
    (∀ ds, splitQuote q (cs ++ ds) =
        (true, (splitQuote q cs).2.1, (splitQuote q cs).2.2 ++ ds)) ∧
      splitQuote q (splitQuote q cs).2.1 = (true, (splitQuote q cs).2.1, []) ∧
      (splitQuote q cs).2.1.getLast? = some q := by
  fun_induction splitQuote q cs with
  | case1 => cases h
  | case2 => cases h
  | case3 c cs closed text rest heq ih =>
    rw [heq] at ih
    obtain ⟨happ, hself, hlast⟩ := ih h
    refine ⟨fun ds => ?_, ?_, ?_⟩
    · rw [List.cons_append, List.cons_append, splitQuote_backslash, happ]
    · rw [splitQuote_backslash, hself]
    · simp only [List.getLast?_cons, hlast]
      rfl
  | case4 c cs hbs hbs' hq =>
    have hc := ne_backslash hbs hbs'
    refine ⟨fun ds => ?_, ?_, ?_⟩
    · rw [List.cons_append, splitQuote_cons hc, if_pos hq]
    · rw [splitQuote_cons hc, if_pos hq]
    · rw [eq_of_beq hq]
      rfl
  | case5 c cs hbs hbs' hq closed text rest heq ih =>
    rw [heq] at ih
    obtain ⟨happ, hself, hlast⟩ := ih h
    have hc := ne_backslash hbs hbs'
    refine ⟨fun ds => ?_, ?_, ?_⟩
    · rw [List.cons_append, splitQuote_cons hc, if_neg hq, happ]
    · rw [splitQuote_cons hc, if_neg hq, hself]
    · simp only [List.getLast?_cons, hlast]
      rfl

/-! ## Any lexeme -/

/-- Punctuation is neither a symbol nor an end mark. -/
theorem Kind.ofChar?_ne {c : Char} {k : Kind} (h : Kind.ofChar? c = some k) :
    k ≠ .symbol ∧ k ≠ .endOfInput := by
  obtain ⟨before, behind, heq, -⟩ := List.lookup_eq_some_iff.mp h
  have hmem : (c, k) ∈ Kind.punctuation := by simp [heq]
  have hall : ∀ entry ∈ Kind.punctuation, entry.2 ≠ .symbol ∧ entry.2 ≠ .endOfInput := by decide
  exact hall _ hmem

/-- The start of a word is a part of it. -/
theorem isWordPart_of_isWordStart {c : Char} (h : isWordStart c = true) : isWordPart c = true := by
  simp only [isWordStart, Bool.or_eq_true] at h
  rcases h with h | h <;> simp [isWordPart, h]

/-- **The four classes of lexemes**: `Lexeme v c r k text rest` says that the text `c :: r` starts
with the lexeme `text` of the kind `k`, behind which `rest` is left. -/
inductive Lexeme (v : Vocabulary) (c : Char) (r : List Char) : Kind → List Char → List Char → Prop
  | word : isWordStart c = true →
      Lexeme v c r (v.kindOf (String.ofList ((c :: r).takeWhile isWordPart)))
        ((c :: r).takeWhile isWordPart) ((c :: r).dropWhile isWordPart)
  | number {k text rest} : isWordStart c = false → isDigit c = true →
      cutNumber (c :: r) = ⟨.ok k, text, rest⟩ → Lexeme v c r k text rest
  | quoted : isWordStart c = false → isDigit c = false → (c = '\x22' ∨ c = '\x27') →
      (splitQuote c r).1 = true →
      Lexeme v c r .symbol (c :: (splitQuote c r).2.1) (splitQuote c r).2.2
  | mark {k} : isWordStart c = false → isDigit c = false → ¬ (c = '\x22' ∨ c = '\x27') →
      Kind.ofChar? c = some k → Lexeme v c r k [c] r

/-- A cut finds a lexeme of one of the classes. -/
theorem cutLexeme_iff {v : Vocabulary} {c : Char} {r text rest : List Char} {k : Kind} :
    cutLexeme v c r = ⟨.ok k, text, rest⟩ ↔ Lexeme v c r k text rest := by
  constructor
  · intro h
    unfold cutLexeme at h
    by_cases hw : isWordStart c = true
    · rw [if_pos hw, cutWord] at h
      injection h with hv ht hr
      injection hv with hv
      subst hv ht hr
      exact .word hw
    · rw [if_neg hw] at h
      rw [Bool.not_eq_true] at hw
      by_cases hd : isDigit c = true
      · rw [if_pos hd] at h
        exact .number hw hd h
      · rw [if_neg hd] at h
        rw [Bool.not_eq_true] at hd
        by_cases hq : c = '\x22' ∨ c = '\x27'
        · rw [if_pos (by simpa using hq), cutQuoted] at h
          injection h with hv ht hr
          by_cases hclosed : (splitQuote c r).1 = true
          · rw [if_pos hclosed] at hv
            injection hv with hv
            subst hv ht hr
            exact .quoted hw hd hq hclosed
          · rw [if_neg hclosed] at hv
            cases hv
        · rw [if_neg (by simpa using hq)] at h
          split at h
          · next heq =>
            injection h with hv ht hr
            injection hv with hv
            subst hv ht hr
            exact .mark hw hd hq heq
          · injection h with hv
            cases hv
  · intro h
    unfold cutLexeme
    cases h with
    | word hw =>
      rw [if_pos hw]
      rfl
    | number hw hd h => rw [if_neg (by simp [hw]), if_pos hd, h]
    | quoted hw hd hq hclosed =>
      rw [if_neg (by simp [hw]), if_neg (by simp [hd]), if_pos (by simpa using hq), cutQuoted]
      simp only [hclosed, if_true]
    | mark hw hd hq heq =>
      rw [if_neg (by simp [hw]), if_neg (by simp [hd]), if_neg (by simpa using hq), heq]

namespace Lexeme

variable {v : Vocabulary} {c : Char} {r text rest : List Char} {k : Kind}

/-- **What a lexeme cannot go on with** does not change it. -/
theorem append_right (h : Lexeme v c r k text rest) {ds : List Char} (hs : Stops ds) :
    Lexeme v c (r ++ ds) k text (rest ++ ds) := by
  cases h with
  | word hw =>
    have hstop : ∀ d ∈ ds.head?, isWordPart d = false := fun d hd => (hs d hd).1
    have hword := Lexeme.word (v := v) (r := r ++ ds) hw
    rw [← List.cons_append, takeWhile_append_of_stop hstop, dropWhile_append_of_stop hstop] at hword
    exact hword
  | number hw hd h => exact .number hw hd (cutNumber_append_right h hs)
  | quoted hw hd hq hclosed =>
    have happ := (splitQuote_closed hclosed).1 ds
    have hquoted := Lexeme.quoted (v := v) (r := r ++ ds) hw hd hq (by rw [happ])
    rw [happ] at hquoted
    exact hquoted
  | mark hw hd hq heq => exact .mark hw hd hq heq

/-- The lexeme and the rest make up the text. -/
theorem whole (h : Lexeme v c r k text rest) : text ++ rest = c :: r := by
  have h' := cutLexeme_append v c r
  rw [cutLexeme_iff.mpr h] at h'
  exact h'

theorem ne_nil (h : Lexeme v c r k text rest) : text ≠ [] := by
  have hverdict : (cutLexeme v c r).verdict = .ok k := by rw [cutLexeme_iff.mpr h]
  have h' := cutLexeme_text_ne_nil hverdict
  rw [cutLexeme_iff.mpr h] at h'
  exact h'

/-- **A lexeme by itself** is cut off as a whole. -/
theorem alone (h : Lexeme v c r k text rest) :
    ∃ r', text = c :: r' ∧ Lexeme v c r' k text [] := by
  obtain ⟨c', r', rfl⟩ := List.exists_cons_of_ne_nil h.ne_nil
  obtain ⟨rfl, -⟩ := List.cons.inj h.whole
  refine ⟨r', rfl, ?_⟩
  generalize htext : c' :: r' = text at h
  cases h with
  | word hw =>
    have hword := Lexeme.word (v := v) (r := r') hw
    rw [htext, List.takeWhile_idem, dropWhile_takeWhile_self] at hword
    exact hword
  | number hw hd h =>
    refine .number hw hd ?_
    rw [htext]
    exact cutNumber_text h
  | quoted hw hd hq hclosed =>
    obtain ⟨-, rfl⟩ := List.cons.inj htext
    have hself := (splitQuote_closed hclosed).2.1
    have hquoted := Lexeme.quoted (v := v) (r := (splitQuote c' r).2.1) hw hd hq (by rw [hself])
    rw [hself] at hquoted
    exact hquoted
  | mark hw hd hq heq =>
    obtain ⟨-, rfl⟩ := List.cons.inj htext
    exact .mark hw hd hq heq

/-- A lexeme is no end mark, if no word is one. -/
theorem ne_endOfInput (h : Lexeme v c r k text rest) (hv : ∀ word, v.kindOf word ≠ .endOfInput) :
    k ≠ .endOfInput := by
  cases h with
  | word => exact hv _
  | number _ _ h =>
    rw [cutNumber_kind h]
    simp
  | quoted => simp
  | mark _ _ _ hm => exact (Kind.ofChar?_ne hm).2

/-- No lexeme starts with layout. -/
theorem front (h : Lexeme v c r k text rest) : isLayoutBlank c = false ∧ c ≠ '#' := by
  by_contra hno
  -- layout starts with one of five characters, and none of them starts a lexeme
  have hfive : c = ' ' ∨ c = '\t' ∨ c = '\r' ∨ c = '\n' ∨ c = '#' := by
    by_cases hc : c = '#'
    · simp [hc]
    · have hb : isLayoutBlank c = true := by
        by_contra hb
        exact hno ⟨by simpa using hb, hc⟩
      simpa [isLayoutBlank, hc, or_assoc] using hb
  have hclass : isWordStart c = false ∧ isDigit c = false ∧ ¬ (c = '\x22' ∨ c = '\x27') ∧
      Kind.ofChar? c = none := by
    rcases hfive with rfl | rfl | rfl | rfl | rfl <;> decide
  obtain ⟨hw, hd, hq, hm⟩ := hclass
  cases h with
  | word hw' => simp [hw] at hw'
  | number _ hd' => simp [hd] at hd'
  | quoted _ _ hq' => exact hq hq'
  | mark _ _ _ hm' => simp [hm] at hm'

end Lexeme

/-! ## Blanks -/

/-- The code points of a set. -/
def codePoints (s : CodePoints) : List Nat :=
  s.flatMap fun range => List.range' range.1 (range.2 + 1 - range.1)

theorem mem_codePoints {s : CodePoints} {n : Nat} (h : s.has n = true) : n ∈ codePoints s := by
  induction s with
  | nil => cases h
  | cons range s ih =>
    obtain ⟨lo, hi⟩ := range
    rw [codePoints, List.flatMap_cons, List.mem_append]
    unfold CodePoints.has at h
    split at h
    · cases h
    · split at h
      · refine .inl (List.mem_range'_1.mpr ?_)
        dsimp only
        omega
      · exact .inr (ih h)

/-- No white space belongs to a word or to a number. -/
theorem not_blank_of_part {c : Char} (h : isWordPart c = true ∨ isDigit c = true) :
    isBlank c = false := by
  by_contra hb
  rw [Bool.not_eq_false] at hb
  -- there are few blanks, so each is looked up
  have hnone : ∀ n ∈ codePoints blanks, letters.has n = false ∧ numerals.has n = false ∧
      digits.has n = false ∧ n ≠ 0x5F := by decide +kernel
  obtain ⟨hl, hn, hd, hu⟩ := hnone c.toNat (mem_codePoints hb)
  have hc : c ≠ '_' := by
    rintro rfl
    exact hu rfl
  rcases h with h | h
  · simp [isWordPart, isLetter, isNumeral, CodePoints.contains, hl, hn, hc] at h
  · simp [isDigit, CodePoints.contains, hd] at h

/-- A run ends with a character of its class. -/
theorem getLast?_takeWhile {p : Char → Bool} {cs : List Char} {c : Char}
    (h : (cs.takeWhile p).getLast? = some c) : p c = true :=
  List.mem_takeWhile_imp (List.mem_of_getLast? h)

/-- **A symbol ends with no blank.** -/
theorem Lexeme.last {v : Vocabulary} {c : Char} {r text rest : List Char}
    (h : Lexeme v c r .symbol text rest) {d : Char} (hd : text.getLast? = some d) :
    isBlank d = false := by
  generalize hk : Kind.symbol = k at h
  cases h with
  | word => exact not_blank_of_part (.inl (getLast?_takeWhile hd))
  | number _ _ h =>
    by_cases hf : startsFraction ((c :: r).dropWhile isDigit) = true
    · obtain ⟨e, more, heq, he⟩ := startsFraction_iff.mp hf
      rw [cutNumber_of_fraction heq he] at h
      injection h with _ ht _
      have hfirst : (e :: more).takeWhile isDigit = e :: more.takeWhile isDigit := by simp [he]
      rw [← ht, List.getLast?_append, List.getLast?_cons, hfirst, List.getLast?_cons] at hd
      have hlast : ((e :: more).takeWhile isDigit).getLast? = some d := by
        rw [hfirst, List.getLast?_cons]
        simpa using hd
      exact not_blank_of_part (.inr (getLast?_takeWhile hlast))
    · rw [Bool.not_eq_true] at hf
      rw [cutNumber_of_not_fraction hf] at h
      injection h with _ ht _
      rw [← ht] at hd
      exact not_blank_of_part (.inr (getLast?_takeWhile hd))
  | quoted _ _ hq hclosed =>
    rw [List.getLast?_cons, (splitQuote_closed hclosed).2.2] at hd
    obtain rfl : c = d := by simpa using hd
    rcases hq with rfl | rfl <;> decide
  | mark hw hdig hq hm =>
    subst hk
    exact absurd rfl (Kind.ofChar?_ne hm).1

end BlockLang
