import BlockLang.Proofs.Token.Layout
import BlockLang.Proofs.Token.Lone

/-!
# Positions

A text that is cut into tokens is the texts of the tokens, with layout in front of, between and
behind them. Nothing is lost and nothing is read twice. Each token knows the line and the column at
which its text starts, counted by the line feeds in front of it and the characters behind the last
of them.
-/

namespace BlockLang

/-- The last line of a text, up to its end. -/
def lastLine (cs : List Char) : List Char := cs.rtakeWhile (· != '\n')

/-- **A text in pieces**: behind the characters `before` stands a text of layout and the tokens
`ts`, each at the line and the column of the characters in front of it. -/
inductive Pieces : List Char → List Char → List Token → Prop
  | layout {before gap} : FinalLayout gap → Pieces before gap []
  | token {before gap rest t ts} : Layout gap → t.value ≠ "" →
      t.line = 1 + ((before ++ gap).count '\n' : Int) →
      t.col = 1 + ((lastLine (before ++ gap)).length : Int) →
      Pieces (before ++ gap ++ t.value.toList) rest ts →
      Pieces before (gap ++ t.value.toList ++ rest) (t :: ts)

/-- **The location behind a text** is given by its line feeds and by its last line. -/
theorem Location.after_start (cs : List Char) :
    Location.start.after cs = ⟨1 + cs.count '\n', 1 + (lastLine cs).length⟩ := by
  -- the induction is on the end of the text, where the last line grows or starts
  induction cs using List.reverseRecOn with
  | nil => rfl
  | append_singleton cs c ih =>
    rw [after_append, ih]
    by_cases hc : c = '\n'
    · subst hc
      simp [after, next, lastLine, List.count_append, Int.add_assoc]
    · simp [after, next, lastLine, List.count_append, hc, Int.add_assoc]

/-- A run of tokens is made of the pieces of its text. -/
theorem TokenRun.pieces {v : Vocabulary} (hv : ∀ word, v.kindOf word ≠ .endOfInput)
    {l : Location} {before cs : List Char} {ts : List Token} (h : TokenRun v l cs ts)
    (hl : l = Location.start.after before) : Pieces before cs ts := by
  induction h generalizing before with
  | nil heq => exact .layout (finalLayout_of_splitLayout heq)
  | stop _ hlex => exact absurd rfl (hlex.ne_endOfInput hv)
  | @lexeme l cs c r k text rest ts heq hlex hk hrun ih =>
    subst hl
    have hgap := layout_of_splitLayout heq
    have hwhole := hlex.whole_text heq
    have hne : String.ofList text ≠ "" := by simpa using hlex.ne_nil
    have hpieces : Pieces (before ++ (splitLayout cs).1 ++ text) rest ts :=
      ih (by rw [Location.after_append, Location.after_append])
    rw [← Location.after_append]
    have htoken := Pieces.token (t := .located k (String.ofList text)
      (Location.start.after (before ++ (splitLayout cs).1))) hgap hne
      (by rw [Location.after_start]; rfl) (by rw [Location.after_start]; rfl)
      (by simpa [Token.located] using hpieces)
    simpa [Token.located, hwhole] using htoken

/-- **Cutting a text loses nothing, and positions are exact.** -/
theorem tokenize_pieces (v : Vocabulary) (hv : ∀ entry ∈ v, entry.2 ≠ .endOfInput) (s : String)
    (ts : List Token) (h : tokenize v s = .ok ts) : Pieces [] s.toList ts :=
  (tokenRun_of_tokensFrom h).pieces (Vocabulary.kindOf_ne (by simp) hv) rfl

/-- A comment in front of a quoted text of two lines, and a name behind that. -/
theorem tokenize_pieces_twoLines :
    (∀ entry ∈ Vocabulary.canonical, entry.2 ≠ .endOfInput) ∧
      ∃ ts, tokenize .canonical "# a\n'b\nc' d" = .ok ts ∧ Pieces [] "# a\n'b\nc' d".toList ts := by
  have hv : ∀ entry ∈ Vocabulary.canonical, entry.2 ≠ .endOfInput := by decide
  have h : tokenize .canonical "# a\n'b\nc' d" =
      .ok [⟨.symbol, "'b\nc'", 2, 1⟩, ⟨.symbol, "d", 3, 4⟩] := by cbv
  exact ⟨hv, _, h, tokenize_pieces _ hv _ _ h⟩

end BlockLang
