import BlockLang.Proofs.Aliases.Respelling
import BlockLang.Proofs.Source.Derived

/-!
# Programs of sources with aliases

A word that is no alias is a symbol as it would be without aliases. So what is read with aliases is
well formed in the same sense: its names are lone symbols, its loops have names, its bodies nest no
deeper than may be read, and it can be written.
-/

namespace BlockLang

namespace Vocabulary.Aliased

variable {v : Vocabulary} (hv : v.Aliased)

include hv

/-- **A token by itself** is read as itself, respelled. -/
theorem reads_token {l : Location} {cs : List Char} {ts : List Token} (h : TokenRun v l cs ts)
    {t : Token} (ht : t ∈ ts) : Reads .canonical t.canonicalText.toList [t.terminal] := by
  induction h with
  | nil => cases ht
  | stop => cases ht
  | @lexeme l cs c r k text rest ts _ hl _ _ ih =>
    rcases List.mem_cons.mp ht with rfl | ht
    · rw [Token.terminal_located]
      exact hv.reads_lexeme hl _
    · exact ih ht

/-- Every symbol that a text with aliases was cut into is lone. -/
theorem loneSymbols {l : Location} {cs : List Char} {ts : List Token} (h : TokenRun v l cs ts) :
    LoneSymbols (terminals ts) := by
  intro n hn
  obtain ⟨t, ht, heq⟩ := List.mem_map.mp hn
  obtain ⟨hsym, rfl⟩ := Token.terminal_eq_symbol.mp heq
  have hread := hv.reads_token h ht
  have htext : t.canonicalText = t.value := by rw [Token.canonicalText, hsym]
  rw [htext, Token.terminal_of_symbol hsym] at hread
  exact lone_iff.mpr hread

end Vocabulary.Aliased

namespace Program

/-- **What is read with aliases is well formed.** After any calls, a program that a source denotes
has lone names, a name in every loop over collections, bodies nested no deeper than may be read,
and a source text. -/
theorem wellFormed_of_ofSource (calls : List Aliases.Call) (s : String) (p : Program)
    (h : ofSource (Aliases.canonical.afterCalls calls).vocabulary defaultLimit s = .ok p) :
    (∀ n ∈ p.names, Lone n) ∧ (∀ i ∈ p.instructions, i.HasNames) ∧ p.depth ≤ 200 ∧
      ∃ t, p.source = .ok t := by
  obtain ⟨ts, hts, hp⟩ := exists_tokens_of_ofSource h
  have hrun := tokenRun_of_tokensFrom hts
  have hlone := (Aliases.aliased_afterCalls calls).loneSymbols hrun
  obtain ⟨hnamed, hgiven, hdepth⟩ := given_of_ofTokens hrun.endFree hlone hp
  have hreadable : ∀ i ∈ p.instructions, i.Readable := fun i hi => (hgiven i hi).readable
  obtain ⟨t, ht, -⟩ := source_reads hnamed fun i hi => (hreadable i hi).writable
  exact ⟨hnamed, fun i hi => (hreadable i hi).named, hdepth, t, ht⟩

/-- A structure with a field behind an alias. -/
theorem wellFormed_of_ofSource_donnee :
    ∃ p, ofSource (Aliases.canonical.afterCalls donneeCalls).vocabulary defaultLimit
        "donnee P\x7bx: Int\x7d" = .ok p ∧
      p.names = ["P", "x", "Int"] ∧ (∀ n ∈ p.names, Lone n) ∧
      (∀ i ∈ p.instructions, i.HasNames) ∧ p.depth ≤ 200 ∧ ∃ t, p.source = .ok t := by
  have h : ofSource (Aliases.canonical.afterCalls donneeCalls).vocabulary defaultLimit
      "donnee P\x7bx: Int\x7d" = .ok ⟨[.data "P" [⟨"x", "Int"⟩]]⟩ := by cbv
  exact ⟨_, h, rfl, wellFormed_of_ofSource donneeCalls _ _ h⟩

end Program

end BlockLang
