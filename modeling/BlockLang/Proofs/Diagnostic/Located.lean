import BlockLang.Proofs.Aliases.Respelling
import BlockLang.Proofs.Diagnostic.Snippet
import BlockLang.Proofs.Lookahead.Earliest
import BlockLang.Proofs.Lookahead.Places
import BlockLang.Proofs.Token.Faults

/-!
# Diagnostics point at the source

An error of a source stands on one of its lines: where a token starts, behind the last token, or
where the source can be cut no further. So a diagnostic shows the lines around that one, and its
marker stands under what is wrong.
-/

namespace BlockLang

open BlockLang.Text

/-- A place is on a line of its source. -/
theorem Place.bounds {s : String} {line col : Int} {before rest : List Char}
    (h : Place s line col before rest) : 1 ≤ line ∧ line ≤ (lines s).length ∧ 1 ≤ col := by
  obtain ⟨hlt, -⟩ := List.getElem?_eq_some_iff.mp h.shown
  have hline := h.line
  have hcol := h.col
  omega

/-- Something stands at the place, so the source is not empty. -/
theorem Place.ne_empty {s : String} {line col : Int} {before rest : List Char}
    (h : Place s line col before rest) (hne : rest ≠ []) : s ≠ "" := by
  rintro rfl
  have hwhole := h.whole
  simp [hne] at hwhole

namespace SyntaxError

variable {s : String} {e : SyntaxError}

/-- **The error is on a line of the source**, which is not empty. -/
structure OnLine (s : String) (e : SyntaxError) : Prop where
  bounds : 1 ≤ e.line ∧ e.line ≤ (lines s).length ∧ 1 ≤ e.col
  nonempty : s ≠ ""

/-- An error that stands in the tokens of a source is on one of its lines. -/
theorem PlacedIn.onLine {ts : List Token} (h : e.PlacedIn ts) (hp : Pieces [] s.toList ts) :
    OnLine s e := by
  cases h with
  | @about t ht _ hline hcol =>
    obtain ⟨front, rest, hne, hplace⟩ := hp.place ht rfl
    exact ⟨hline ▸ hcol ▸ hplace.bounds, hplace.ne_empty (by simp [hne])⟩
  | @ended t ht _ hline hcol =>
    obtain ⟨front, rest, hne, hplace⟩ := hp.place (List.mem_of_getLast? ht) rfl
    have hbounds := hplace.bounds
    exact ⟨by omega, hplace.ne_empty (by simp [hne])⟩

/-- The token of an error stands in the source where the error does. -/
theorem PlacedIn.token {ts : List Token} (h : e.PlacedIn ts) (hp : Pieces [] s.toList ts)
    {t : Token} (ht : e.token = some t) :
    ∃ before rest, Place s e.line e.col before (t.value.toList ++ rest) := by
  cases h with
  | @about u hu htoken hline hcol =>
    obtain rfl : u = t := Option.some.inj (htoken.symm.trans ht)
    obtain ⟨front, rest, -, hplace⟩ := hp.place hu rfl
    exact ⟨front, rest, hline ▸ hcol ▸ hplace⟩
  | ended _ hnone =>
    rw [hnone] at ht
    cases ht

end SyntaxError

/-- **A lexical error** is at the first character of what cannot be cut. -/
theorem Place.of_firstFault {v : Vocabulary} {s : String} {before rest : List Char} {c : Char}
    {f : Fault} (h : FirstFault v s.toList before c rest f) :
    Place s (f.error (Location.start.after before)).line (f.error (Location.start.after before)).col
      before (c :: rest) := by
  rw [Location.after_start]
  exact place_of_append h.whole

namespace Program

/-- **Diagnostics point at the source.** An error of a source, under any aliases, is on a line of
the source and at a column. Its diagnostic is the place, the numbered lines around it with the
marker, and the message. If the error is about a token, the source goes on with that token at its
place. If it is a lexical error, then everything in front of its place is cut into tokens, and
what stands there is neither layout nor the start of a lexeme. -/
theorem ofSource_error_located (calls : List Aliases.Call) (limit : Int) (file s : String)
    (e : SyntaxError)
    (h : ofSource (Aliases.canonical.afterCalls calls).vocabulary limit s = .error e) :
    (1 ≤ e.line ∧ e.line ≤ (lines s).length ∧ 1 ≤ e.col) ∧
      e.diagnostic (some (e.context file s)) = unlines (e.report file s) ∧
      (∀ t, e.token = some t →
        ∃ before rest, Place s e.line e.col before (t.value.toList ++ rest)) ∧
      (e.tag = .lexical → ∃ before c rest, Place s e.line e.col before (c :: rest) ∧
        (∃ ts, tokenize (Aliases.canonical.afterCalls calls).vocabulary (String.ofList before) =
          .ok ts) ∧
        isLayoutBlank c = false ∧ c ≠ '#' ∧
        ∀ k text more,
          ¬ Lexeme (Aliases.canonical.afterCalls calls).vocabulary c rest k text more) := by
  have hv := (Aliases.aliased_afterCalls calls).kindOf_ne_endOfInput
  generalize (Aliases.canonical.afterCalls calls).vocabulary = v at h hv ⊢
  -- it is enough to know the line, and what stands at the place
  have hshown : ∀ {e : SyntaxError}, e.OnLine s →
      e.diagnostic (some (e.context file s)) = unlines (e.report file s) := fun hon =>
    SyntaxError.diagnostic_context file hon.bounds.1 hon.bounds.2.1 hon.bounds.2.2 hon.nonempty
  cases hts : tokenize v s with
  | error e' =>
    rw [ofSource_of_tokenize_error hts] at h
    cases h
    obtain ⟨before, c, rest, f, hfault, rfl⟩ := exists_firstFault hts
    have hplace := Place.of_firstFault hfault
    have hon : (f.error (Location.start.after before)).OnLine s :=
      ⟨hplace.bounds, hplace.ne_empty (List.cons_ne_nil _ _)⟩
    refine ⟨hon.bounds, hshown hon, fun t ht => (by cases ht), fun _ =>
      ⟨before, c, rest, hplace, ?_, hfault.front.1, hfault.front.2, hfault.not_lexeme⟩⟩
    simpa [tokenize] using hfault.cut .start
  | ok ts =>
    have hrun := tokenRun_of_tokensFrom hts
    have hpieces : Pieces [] s.toList ts := hrun.pieces hv rfl
    rw [ofSource_of_tokenize hts] at h
    have hplaced := ofTokens_placedIn hrun.endFree h
    have hon := hplaced.onLine hpieces
    refine ⟨hon.bounds, hshown hon, fun t ht => hplaced.token hpieces ht, fun htag => ?_⟩
    -- what the grammar refuses has another tag
    rcases ofTokens_error_tag h with hincomplete | hviolation
    · rw [hincomplete] at htag
      cases htag
    · rw [htag] at hviolation
      simp [SyntaxError.Tag.violations] at hviolation

/-- A structure behind an alias, with a field that has no name. -/
def unnamedField : String := "# a point\ndonnee P\n\x7b\n  x: number,\n  : number\n\x7d\n"

/-- The error of the field without a name, on a line with two others above it and below it. -/
theorem ofSource_error_located_unnamedField :
    ∃ e, ofSource (Aliases.canonical.afterCalls donneeCalls).vocabulary defaultLimit unnamedField =
        .error e ∧
      (1 ≤ e.line ∧ e.line ≤ (lines unnamedField).length ∧ 1 ≤ e.col) ∧
      e.diagnostic (some (e.context "a" unnamedField)) = unlines (e.report "a" unnamedField) ∧
      (∀ t, e.token = some t →
        ∃ before rest, Place unnamedField e.line e.col before (t.value.toList ++ rest)) ∧
      (e.tag = .lexical → ∃ before c rest, Place unnamedField e.line e.col before (c :: rest) ∧
        (∃ ts, tokenize (Aliases.canonical.afterCalls donneeCalls).vocabulary
          (String.ofList before) = .ok ts) ∧
        isLayoutBlank c = false ∧ c ≠ '#' ∧
        ∀ k text more,
          ¬ Lexeme (Aliases.canonical.afterCalls donneeCalls).vocabulary c rest k text more) := by
  have h : ofSource (Aliases.canonical.afterCalls donneeCalls).vocabulary defaultLimit
      unnamedField = .error (.about .missingName "Expected name for field. Got ':'."
        ⟨.delimiter .colon, ":", 5, 3⟩) := by cbv
  exact ⟨_, h, ofSource_error_located donneeCalls defaultLimit "a" unnamedField _ h⟩

/-- The report of that error. -/
example : (SyntaxError.about .missingName "Expected name for field. Got ':'."
      ⟨.delimiter .colon, ":", 5, 3⟩).report "a" unnamedField =
    ["a:5:3", "   3 | \x7b", "   4 |   x: number,", "   5 |   : number", "         ^^^",
      "   6 | \x7d", "   7 | ", "MissingName: Expected name for field. Got ':'."] := by
  decide +kernel

end Program

end BlockLang
