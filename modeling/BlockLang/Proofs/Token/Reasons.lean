import BlockLang.Proofs.Text.CodePoints
import BlockLang.Proofs.Token.Faults

/-!
# Reasons

What a text looks like whose front is no lexeme. There is a number with a second fraction, a quote
that is not closed, or a character that begins nothing. A quote is closed by the next quote of its
kind that no backslash hides, where a backslash that is not hidden itself hides the character behind
it, also a backslash.
-/

namespace BlockLang

open BlockLang.Text

/-! ## Quotes -/

/-- What may stand between two quotes `q`: no quote `q` but behind a backslash, which takes the next
character with it. -/
inductive Inside (q : Char) : List Char → Prop
  | nil : Inside q []
  | plain {c cs} : c ≠ '\\' → c ≠ q → Inside q cs → Inside q (c :: cs)
  | hidden {c cs} : Inside q cs → Inside q ('\\' :: c :: cs)

/-- Where what is inside the quotes `q` stops: at the end, at a backslash that hides nothing, or at
a quote `q`. -/
inductive QuoteStop (q : Char) : List Char → Prop
  | nil : QuoteStop q []
  | backslash : QuoteStop q ['\\']
  | quote {cs} : QuoteStop q (q :: cs)

/-- Is there a quote `q` that closes the text in front of it? -/
def Closes (q : Char) (cs : List Char) : Prop :=
  ∃ body rest, cs = body ++ q :: rest ∧ Inside q body

section

variable {q : Char} {body more : List Char}

/-- Any text goes on inside the quotes up to a stop. -/
theorem exists_inside (q : Char) (cs : List Char) :
    ∃ body more, cs = body ++ more ∧ Inside q body ∧ QuoteStop q more := by
  fun_induction splitQuote q cs with
  | case1 => exact ⟨[], [], rfl, .nil, .nil⟩
  | case2 => exact ⟨[], ['\\'], rfl, .nil, .backslash⟩
  | case3 c cs closed text rest heq ih =>
    obtain ⟨body, more, rfl, hbody, hmore⟩ := ih
    exact ⟨'\\' :: c :: body, more, rfl, .hidden hbody, hmore⟩
  | case4 c cs hbs hbs' hq =>
    obtain rfl := eq_of_beq hq
    exact ⟨[], c :: cs, rfl, .nil, .quote⟩
  | case5 c cs hbs hbs' hq closed text rest heq ih =>
    obtain ⟨body, more, rfl, hbody, hmore⟩ := ih
    have hc := ne_backslash hbs hbs'
    exact ⟨c :: body, more, rfl, .plain hc (by simpa using hq) hbody, hmore⟩

/-- The search for the closing quote goes past what is inside. -/
theorem Inside.splitQuote_append (h : Inside q body) (more : List Char) :
    splitQuote q (body ++ more) =
      ((splitQuote q more).1, body ++ (splitQuote q more).2.1, (splitQuote q more).2.2) := by
  induction h with
  | nil => rfl
  | plain hc hq _ ih =>
    rw [List.cons_append, splitQuote_cons hc, if_neg (by simpa using hq), ih]
    rfl
  | hidden _ ih =>
    rw [List.cons_append, List.cons_append, splitQuote_backslash, ih]
    rfl

theorem splitQuote_quote (hq : q ≠ '\\') (cs : List Char) :
    splitQuote q (q :: cs) = (true, [q], cs) := by
  rw [splitQuote_cons hq, if_pos (beq_self_eq_true q)]

/-- **The search for the closing quote** finds one exactly if there is one. -/
theorem splitQuote_closed_iff (hq : q ≠ '\\') {cs : List Char} :
    (splitQuote q cs).1 = true ↔ Closes q cs := by
  constructor
  · intro h
    obtain ⟨body, more, rfl, hbody, hmore⟩ := exists_inside q cs
    rw [hbody.splitQuote_append] at h
    cases hmore with
    | nil => cases h
    | backslash => cases h
    | quote => exact ⟨body, _, rfl, hbody⟩
  · rintro ⟨body, rest, rfl, hbody⟩
    rw [hbody.splitQuote_append, splitQuote_quote hq]

end

/-! ## What a fault shows -/

/-- **What a fault is about**: `f.Shows cs` says that the front of `cs` is wrong in the way that the
fault `f` reports. -/
inductive Fault.Shows : Fault → List Char → Prop
  /-- Digits, a point, digits, and then another point and a digit. -/
  | malformedNumber {ds es d more} : ds ≠ [] → (∀ c ∈ ds, isDigit c = true) →
      es ≠ [] → (∀ c ∈ es, isDigit c = true) → isDigit d = true →
      Shows .malformedNumber (ds ++ '.' :: (es ++ '.' :: d :: more))
  /-- A quote that nothing closes. -/
  | unterminatedText {q cs} : q = '\x22' ∨ q = '\x27' → ¬ Closes q cs →
      Shows .unterminatedText (q :: cs)
  /-- A character that begins neither layout nor a lexeme. -/
  | strayCharacter {c cs} : c ∉ [' ', '\t', '\r', '\n', '#', '_', '\x22', '\x27'] →
      isLetter c = false → isDigit c = false → c ∉ Kind.punctuation.map Prod.fst →
      Shows (.strayCharacter c) (c :: cs)

section

variable {v : Vocabulary} {c : Char} {cs : List Char} {f : Fault}

/-- A number that is malformed shows it. -/
theorem shows_of_cutNumber (hc : isDigit c = true)
    (h : (cutNumber (c :: cs)).verdict = .error f) : f.Shows (c :: cs) := by
  by_cases hf : startsFraction ((c :: cs).dropWhile isDigit) = true
  · obtain ⟨d, more, heq, hd⟩ := startsFraction_iff.mp hf
    rw [cutNumber_of_fraction heq hd] at h
    dsimp only at h
    split at h
    · next hf' =>
      cases h
      obtain ⟨d', more', heq', hd'⟩ := startsFraction_iff.mp hf'
      have hwhole : c :: cs = (c :: cs).takeWhile isDigit ++
          '.' :: ((d :: more).takeWhile isDigit ++ '.' :: d' :: more') := by
        rw [← heq', List.takeWhile_append_dropWhile, ← heq, List.takeWhile_append_dropWhile]
      rw [hwhole]
      exact .malformedNumber (by simp [hc]) (fun _ => List.mem_takeWhile_imp) (by simp [hd])
        (fun _ => List.mem_takeWhile_imp) hd'
    · cases h
  · rw [cutNumber_of_not_fraction (by simpa using hf)] at h
    cases h

/-- Digits are left out up to a point. -/
theorem dropWhile_digits {ds : List Char} (hds : ∀ d ∈ ds, isDigit d = true) (cs : List Char) :
    (ds ++ '.' :: cs).dropWhile isDigit = '.' :: cs := by
  rw [List.dropWhile_append_of_pos hds, List.dropWhile_cons_of_neg (by decide)]

/-- A number with two fractions is malformed. -/
theorem cutNumber_of_two_fractions {ds es : List Char} {d : Char}
    (hds : ∀ c ∈ ds, isDigit c = true) (hne : es ≠ []) (hes : ∀ c ∈ es, isDigit c = true)
    (hd : isDigit d = true) (more : List Char) :
    (cutNumber (ds ++ '.' :: (es ++ '.' :: d :: more))).verdict = .error .malformedNumber := by
  have hsecond := dropWhile_digits hes (d :: more)
  cases es with
  | nil => exact absurd rfl hne
  | cons e es =>
    rw [List.cons_append] at hsecond ⊢
    rw [cutNumber_of_fraction (dropWhile_digits hds _) (hes e List.mem_cons_self), hsecond,
      if_pos (startsFraction_iff.mpr ⟨d, more, rfl, hd⟩)]

theorem Kind.ofChar?_eq_none_iff :
    Kind.ofChar? c = none ↔ c ∉ Kind.punctuation.map Prod.fst := by
  rw [Kind.ofChar?, List.lookup_eq_none_iff]
  aesop

/-- No digit begins a word. -/
theorem isWordStart_of_isDigit (h : isDigit c = true) : isWordStart c = false := by
  have hapart : digits.apart letters = true := by decide +kernel
  have hletter : isLetter c = false := CodePoints.not_has_of_apart hapart h
  have hc : c ≠ '_' := by
    rintro rfl
    revert h
    decide
  simp [isWordStart, hletter, hc]

/-- A quote that is reported to be open shows it. -/
theorem shows_of_cutQuoted (hq : c = '\x22' ∨ c = '\x27')
    (h : (cutQuoted c cs).verdict = .error f) : f.Shows (c :: cs) := by
  have hbackslash : c ≠ '\\' := by rcases hq with rfl | rfl <;> decide
  dsimp only [cutQuoted] at h
  split at h
  · cases h
  · next hopen =>
    cases h
    have hunclosed : ¬ Closes c cs := fun hcloses =>
      hopen ((splitQuote_closed_iff hbackslash).mpr hcloses)
    exact .unterminatedText hq hunclosed

/-- A quote that nothing closes is reported. -/
theorem cutQuoted_of_not_closes (hq : c = '\x22' ∨ c = '\x27') (h : ¬ Closes c cs) :
    (cutQuoted c cs).verdict = .error .unterminatedText := by
  have hbackslash : c ≠ '\\' := by rcases hq with rfl | rfl <;> decide
  rw [← splitQuote_closed_iff hbackslash] at h
  simp [cutQuoted, h]

/-- A front that is no lexeme shows why. -/
theorem shows_of_cutLexeme (hfront : isLayoutBlank c = false ∧ c ≠ '#')
    (h : (cutLexeme v c cs).verdict = .error f) : f.Shows (c :: cs) := by
  revert h
  fun_cases cutLexeme v c cs with
  | case1 =>
    intro h
    cases h
  | case2 _ hd => exact shows_of_cutNumber hd
  | case3 _ _ hq => exact shows_of_cutQuoted (by simpa using hq)
  | case4 =>
    intro h
    cases h
  | case5 hw hd hq hmark =>
    intro h
    cases h
    have hblank := hfront.1
    simp only [isWordStart, Bool.or_eq_true, not_or, Bool.not_eq_true] at hw
    simp only [isLayoutBlank, Bool.or_eq_false_iff] at hblank
    refine .strayCharacter ?_ hw.1 (by simpa using hd) (Kind.ofChar?_eq_none_iff.mp hmark)
    simp_all

/-- A front that shows a fault is reported with it, one kind of fault at a time. -/
theorem cutLexeme_of_shows (h : f.Shows (c :: cs)) : (cutLexeme v c cs).verdict = .error f := by
  generalize htext : c :: cs = text at h
  cases h with
  | @malformedNumber ds es d more hne hds hne' hes hd =>
    cases ds with
    | nil => exact absurd rfl hne
    | cons c' ds =>
      obtain ⟨rfl, rfl⟩ := List.cons.inj htext
      have hc : isDigit c = true := hds c List.mem_cons_self
      have hnumber := cutNumber_of_two_fractions hds hne' hes hd more
      simpa [cutLexeme, isWordStart_of_isDigit hc, hc] using hnumber
  | unterminatedText hq hopen =>
    obtain ⟨rfl, rfl⟩ := List.cons.inj htext
    -- a quote begins neither a word nor a number
    have hclass : isWordStart c = false ∧ isDigit c = false := by
      rcases hq with rfl | rfl <;> decide
    have hcut := cutQuoted_of_not_closes hq hopen
    simpa [cutLexeme, hclass, hq] using hcut
  | strayCharacter hno hl hd hmark =>
    obtain ⟨rfl, rfl⟩ := List.cons.inj htext
    rw [← Kind.ofChar?_eq_none_iff] at hmark
    simp only [List.mem_cons, not_or] at hno
    simp [cutLexeme, isWordStart, hl, hd, hno, hmark]

/-- **A front that is no lexeme shows why**: the cut reports a fault exactly if the text shows
it. -/
theorem cutLexeme_error_iff (hfront : isLayoutBlank c = false ∧ c ≠ '#') :
    (cutLexeme v c cs).verdict = .error f ↔ f.Shows (c :: cs) :=
  ⟨shows_of_cutLexeme hfront, cutLexeme_of_shows⟩

end

end BlockLang
