import BlockLang.Proofs.Aliases.Calls
import BlockLang.Proofs.Lookahead.Terminals

/-!
# Respelling

A source that uses aliases can be respelled with the canonical words. The texts of its tokens, the
keywords spelled canonically, with a space between any two, are a source that denotes the same
program, or in which the same kind of violation is found.
-/

namespace BlockLang

/-- The text of a token, or the canonical word of a keyword. -/
def Token.canonicalText (t : Token) : String :=
  match t.kind with
  | .keyword k => k.spelling
  | _ => t.value

/-- The texts of tokens with canonical keywords, with a space between any two. -/
def respelled (ts : List Token) : String := " ".intercalate (ts.map Token.canonicalText)

/-- The vocabulary matters to words only. -/
theorem Lexeme.change_vocabulary {v v' : Vocabulary} {c : Char} {r text rest : List Char} {k : Kind}
    (h : Lexeme v c r k text rest) (hk : ∀ word, v.kindOf word = k → v'.kindOf word = k) :
    Lexeme v' c r k text rest := by
  cases h with
  | word hw =>
    have hword := Lexeme.word (v := v') (r := r) hw
    rwa [hk _ rfl] at hword
  | number hw hd h => exact .number hw hd h
  | quoted hw hd hq hclosed => exact .quoted hw hd hq hclosed
  | mark hw hd hq hm => exact .mark hw hd hq hm

namespace Vocabulary.Aliased

variable {v : Vocabulary} (hv : v.Aliased)

include hv

/-- No word ends the input. -/
theorem kindOf_ne_endOfInput (word : String) : v.kindOf word ≠ .endOfInput := by
  rcases hv.kindOf word with h | ⟨w, h⟩ <;> simp [h]

/-- **A lexeme is respelled** as itself, or as the canonical word of its keyword. -/
theorem reads_lexeme {c : Char} {r text rest : List Char} {k : Kind}
    (h : Lexeme v c r k text rest) (l : Location) :
    Reads .canonical (Token.located k (String.ofList text) l).canonicalText.toList
      [lexemeTerminal k text] := by
  by_cases hkeyword : ∃ w, k = .keyword w
  · obtain ⟨w, rfl⟩ := hkeyword
    have hread := Reads.keyword w stops_nil .nil
    rwa [List.append_nil] at hread
  · have htext : (Token.located k (String.ofList text) l).canonicalText = String.ofList text := by
      unfold Token.canonicalText Token.located
      split
      · next w heq => exact absurd ⟨w, heq⟩ hkeyword
      · rfl
    -- a word that is no keyword is a symbol, and it is one canonically
    have hsame : ∀ word, v.kindOf word = k → canonical.kindOf word = k := by
      rintro word rfl
      rcases hv.kindOf word with hw | ⟨w, hw⟩
      · rw [hw, hv.symbol hw]
      · exact absurd ⟨w, hw⟩ hkeyword
    obtain ⟨r', rfl, hself⟩ := h.alone
    rw [htext, String.toList_ofList]
    exact .lexeme (hself.change_vocabulary hsame) (h.ne_endOfInput hv.kindOf_ne_endOfInput) .nil

/-- The texts of tokens are read one by one, each up to the space behind it. -/
theorem reads_respelled {l : Location} {cs : List Char} {ts : List Token}
    (h : TokenRun v l cs ts) : Reads .canonical (respelled ts).toList (terminals ts) := by
  induction h with
  | nil => exact .nil
  | stop => exact .nil
  | @lexeme l cs c r k text rest ts _ hl _ _ ih =>
    have hfirst := hv.reads_lexeme hl (l.after (splitLayout cs).1)
    cases ts with
    | nil => simpa [respelled, Token.terminal_located] using hfirst
    | cons t ts =>
      have hboth := hfirst.append stops_space ih.space
      simpa [respelled, Token.terminal_located] using hboth

end Vocabulary.Aliased

namespace Program

/-- **Aliases are transparent.** After any calls, whether they fail or not, a source that is cut
into tokens and its respelling under the canonical words denote the same program, or errors of the
same tag are found in them. -/
theorem ofSource_respelled (calls : List Aliases.Call) (limit : Int) (s : String) (ts : List Token)
    (h : tokenize (Aliases.canonical.afterCalls calls).vocabulary s = .ok ts) :
    (∃ p, ofSource (Aliases.canonical.afterCalls calls).vocabulary limit s = .ok p ∧
        ofSource .canonical limit (respelled ts) = .ok p) ∨
      ∃ e e', ofSource (Aliases.canonical.afterCalls calls).vocabulary limit s = .error e ∧
        ofSource .canonical limit (respelled ts) = .error e' ∧ e.tag = e'.tag := by
  have hread := (Aliases.aliased_afterCalls calls).reads_respelled (tokenRun_of_tokensFrom h)
  obtain ⟨us, hus, hterminals⟩ := hread.tokensFrom .start
  rw [ofSource_of_tokenize h, ofSource_of_tokenize hus]
  exact ofTokens_agree Parse.simulation_terminals limit hterminals.symm

/-- The calls that give `data` the alias `donnee`, and then try to give that alias to `group`. -/
def donneeCalls : List Aliases.Call :=
  [.configure [(.text "donnee", .text "DATA")], .configure [(.text "donnee", .text "GROUP")]]

/-- A structure behind an alias is the same program respelled. -/
theorem ofSource_respelled_donnee :
    ∃ ts, tokenize (Aliases.canonical.afterCalls donneeCalls).vocabulary "donnee P\x7b\x7d" =
        .ok ts ∧
      respelled ts = "data P \x7b \x7d" ∧
      ofSource (Aliases.canonical.afterCalls donneeCalls).vocabulary defaultLimit
        "donnee P\x7b\x7d" = .ok ⟨[.data "P" []]⟩ ∧
      ofSource .canonical defaultLimit (respelled ts) = .ok ⟨[.data "P" []]⟩ := by
  have h : tokenize (Aliases.canonical.afterCalls donneeCalls).vocabulary "donnee P\x7b\x7d" =
      .ok [⟨.keyword .data, "donnee", 1, 1⟩, ⟨.symbol, "P", 1, 8⟩,
        ⟨.delimiter .leftBrace, "\x7b", 1, 9⟩, ⟨.delimiter .rightBrace, "\x7d", 1, 10⟩] := by cbv
  have hp : ofSource (Aliases.canonical.afterCalls donneeCalls).vocabulary defaultLimit
      "donnee P\x7b\x7d" = .ok ⟨[.data "P" []]⟩ := by decide +kernel
  refine ⟨_, h, by decide, hp, ?_⟩
  rcases ofSource_respelled donneeCalls defaultLimit _ _ h with ⟨p, hp', hrespelled⟩ | ⟨e, _, he, -⟩
  · rw [hp, Except.ok.injEq] at hp'
    rw [hrespelled, hp']
  · rw [hp] at he
    cases he

end Program

end BlockLang
