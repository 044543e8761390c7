import BlockLang.Proofs.Token.Seam

/-!
# Texts that differ in their layout

What layout stands between tokens does not matter, as long as there is some. The text of a token is
a lexeme by itself, and neither a blank nor a comment goes on with a lexeme. So tokens that were cut
off one text are cut off any other that has their texts in turn, whatever layout is in front of
them, between them and behind them. Only their locations differ.
-/

namespace BlockLang

/-! ## Spaced tokens -/

/-- **Tokens with layout behind them**: the texts of the tokens in turn, and behind each of them
layout, of which there is some if another token follows. -/
inductive Spaced : List Token → List Char → Prop
  | nil : Spaced [] []
  | cons {t ts gap rest} : Layout gap → (ts ≠ [] → gap ≠ []) → Spaced ts rest →
      Spaced (t :: ts) (t.value.toList ++ (gap ++ rest))

/-- No layout goes on with a word or a number. -/
theorem Layout.stops {gap : List Char} (h : Layout gap) (hne : gap ≠ []) (cs : List Char) :
    Stops (gap ++ cs) := by
  cases h with
  | nil => exact absurd rfl hne
  | @blank c _ hb _ =>
    have hfour : c = ' ' ∨ c = '\t' ∨ c = '\r' ∨ c = '\n' := by
      simpa [isLayoutBlank, or_assoc] using hb
    refine stops_cons.mpr ?_
    rcases hfour with rfl | rfl | rfl | rfl <;> decide
  | comment => exact stops_cons.mpr (by decide)

/-- Behind a token stands nothing that goes on with it. -/
theorem Spaced.stops {ts : List Token} {gap rest : List Char} (h : Spaced ts rest)
    (hgap : Layout gap) (hne : ts ≠ [] → gap ≠ []) : Stops (gap ++ rest) := by
  by_cases hnil : gap = []
  · cases h with
    | nil => simp [hnil]
    | cons => exact absurd hnil (hne (by simp))
  · exact hgap.stops hnil rest

/-! ## The tokens of a spaced text -/

/-- What a token is apart from its location. -/
def Token.lexeme (t : Token) : Kind × String := (t.kind, t.value)

/-- **Spaced tokens** are cut off again, at whatever location their text starts. -/
theorem Spaced.tokensFrom {v : Vocabulary} {ts : List Token} {cs : List Char} (h : Spaced ts cs)
    (hts : ∀ t ∈ ts, t.Whole v) (l : Location) :
    ∃ us, tokensFrom v l cs = .ok us ∧ us.map Token.lexeme = ts.map Token.lexeme := by
  induction h generalizing l with
  | nil => exact ⟨[], by rw [tokensFrom_eq, splitLayout_nil], rfl⟩
  | @cons t ts gap rest hgap hne hrest ih =>
    rw [List.forall_mem_cons] at hts
    obtain ⟨⟨c, r, htext, hl, hk⟩, hts⟩ := hts
    obtain ⟨us, hus, heq⟩ := ih hts ((l.after t.value.toList).after gap)
    have hcut := hl.append_right (hrest.stops hgap hne)
    refine ⟨.located t.kind t.value l :: us, ?_, ?_⟩
    · rw [htext, List.cons_append, tokensFrom_lexeme hcut hk, List.nil_append,
        hgap.tokensFrom_append, hus, String.ofList_toList]
      rfl
    · rw [List.map_cons, List.map_cons, heq]
      rfl

/-- **Layout does not change the tokens**: tokens that a text was cut into are those of any text
that has their texts in turn, with layout in front of the first, between any two and behind the
last. -/
theorem tokenize_spaced (v : Vocabulary) (s : String) (ts : List Token)
    (h : tokenize v s = .ok ts) (lead cs : List Char) (hlead : Layout lead) (hcs : Spaced ts cs) :
    ∃ us, tokenize v (String.ofList (lead ++ cs)) = .ok us ∧
      us.map Token.lexeme = ts.map Token.lexeme := by
  have hwhole : ∀ t ∈ ts, t.Whole v := fun t ht => (tokenRun_of_tokensFrom h).whole_of_mem ht
  rw [tokenize, String.toList_ofList, hlead.tokensFrom_append]
  exact hcs.tokensFrom hwhole _

/-- A number, a point and a quoted text, also with a comment in between that holds a quote. -/
theorem tokenize_spaced_comment :
    ∃ ts us, tokenize .canonical "1.5.'#'" = .ok ts ∧
      tokenize .canonical "\t1.5#'\n. '#'" = .ok us ∧
      us.map Token.lexeme = ts.map Token.lexeme ∧ us ≠ ts := by
  have h : tokenize .canonical "1.5.'#'" =
      .ok [⟨.symbol, "1.5", 1, 1⟩, ⟨.delimiter .dot, ".", 1, 4⟩, ⟨.symbol, "'#'", 1, 5⟩] := by cbv
  have hlead : Layout ['\t'] := .blank (by decide) .nil
  have hcomment : Layout ['#', '\x27', '\n'] := @Layout.comment ['\x27'] [] (by decide) .nil
  have hcs : Spaced [⟨.symbol, "1.5", 1, 1⟩, ⟨.delimiter .dot, ".", 1, 4⟩, ⟨.symbol, "'#'", 1, 5⟩]
      "1.5#'\n. '#'".toList :=
    .cons hcomment (by simp) (.cons (.blank (c := ' ') (by decide) .nil) (by simp)
      (.cons .nil (by simp) .nil))
  obtain ⟨us, hus, heq⟩ := tokenize_spaced _ _ _ h _ _ hlead hcs
  refine ⟨_, us, h, hus, heq, ?_⟩
  have hother : tokenize .canonical "\t1.5#'\n. '#'" =
      .ok [⟨.symbol, "1.5", 1, 2⟩, ⟨.delimiter .dot, ".", 2, 1⟩, ⟨.symbol, "'#'", 2, 3⟩] := by cbv
  rw [Except.ok.inj (hus.symm.trans hother)]
  decide

end BlockLang
