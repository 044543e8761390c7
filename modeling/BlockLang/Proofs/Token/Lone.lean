import BlockLang.Proofs.Token.Reads

/-!
# Lone symbols

A name that is a token by itself can be written wherever the grammar wants a name. Every symbol
that a text was cut into is such a name.
-/

namespace BlockLang

open BlockLang.Text

/-- Is `n`, under the canonical keywords, one symbol with the text `n` and nothing more? -/
def Lone (n : String) : Prop :=
  ∃ t, tokenize .canonical n = .ok [t] ∧ t.kind = .symbol ∧ t.value = n

/-- Is a token list one symbol with the text `n`? -/
def isSymbol (n : String) : List Token → Bool
  | [t] => t.kind = .symbol && t.value = n
  | _ => false

instance : DecidablePred Lone := fun n =>
  decidable_of_iff ((tokenize .canonical n).toOption.any (isSymbol n) = true) <| by
    unfold Lone
    cases tokenize .canonical n with
    | error e => simp [Except.toOption]
    | ok ts =>
      cases ts with
      | nil => simp [Except.toOption, isSymbol]
      | cons t ts => cases ts <;> simp [Except.toOption, isSymbol]

/-- A word stands for what an entry says, or it is a symbol. -/
theorem Vocabulary.kindOf_ne {v : Vocabulary} {k : Kind} (hk : k ≠ .symbol)
    (hv : ∀ entry ∈ v, entry.2 ≠ k) (word : String) : v.kindOf word ≠ k := by
  unfold Vocabulary.kindOf
  cases h : Table.find? word v with
  | none => simpa using hk.symm
  | some k' => exact hv _ (Table.mem_of_find? h)

/-- No word ends the input under the canonical keywords. -/
theorem Vocabulary.kindOf_canonical_ne (word : String) :
    Vocabulary.canonical.kindOf word ≠ .endOfInput :=
  Vocabulary.kindOf_ne (by simp) (by decide) word

/-- **A lone symbol is read as itself.** -/
theorem lone_iff {n : String} : Lone n ↔ Reads .canonical n.toList [.symbol n] := by
  constructor
  · rintro ⟨t, hrun, hsym, rfl⟩
    have hcut := tokenRun_of_tokensFrom hrun
    have hread := hcut.reads Vocabulary.kindOf_canonical_ne (by simp)
    rwa [terminals_cons, Token.terminal_of_symbol hsym] at hread
  · intro h
    obtain ⟨ts, hrun, hts⟩ := h.tokensFrom .start
    cases ts with
    | nil => cases hts
    | cons t us =>
      rw [terminals_cons] at hts
      injection hts with ht hus
      cases us with
      | cons u us => cases hus
      | nil =>
        obtain ⟨hsym, hvalue⟩ := Token.terminal_eq_symbol.mp ht
        exact ⟨t, hrun, hsym, hvalue⟩

/-- Every symbol that a text was cut into is lone. -/
theorem lone_of_mem {s : String} {ts : List Token} (h : tokenize .canonical s = .ok ts) {t : Token}
    (ht : t ∈ ts) (hsym : t.kind = .symbol) : Lone t.value :=
  lone_iff.mpr ((tokenRun_of_tokensFrom h).reads_symbol ht hsym)

/-- A lone symbol is not empty and ends with no blank. -/
theorem Lone.last {n : String} (h : Lone n) :
    ∃ d, n.toList.getLast? = some d ∧ isBlank d = false := by
  obtain ⟨t, hrun, hsym, hn⟩ := h
  have hcut := tokenRun_of_tokensFrom hrun
  generalize hts : [t] = ts at hcut
  cases hcut with
  | nil => cases hts
  | stop => cases hts
  | @lexeme _ _ c r k text rest _ _ hl _ _ =>
    injection hts with ht _
    subst ht
    have hkind : k = .symbol := hsym
    subst hkind
    obtain ⟨r', rfl, -⟩ := hl.alone
    have hlist : n.toList = c :: r' := by rw [← hn, Token.located, String.toList_ofList]
    rw [hlist, List.getLast?_cons]
    exact ⟨_, rfl, hl.last List.getLast?_cons⟩

/-! ## Symbols in a token list -/

/-- Every symbol here is lone. -/
def LoneSymbols (ws : List Terminal) : Prop := ∀ s, .symbol s ∈ ws → Lone s

@[simp] theorem loneSymbols_cons {w : Terminal} {ws : List Terminal} :
    LoneSymbols (w :: ws) ↔ (∀ s, w = .symbol s → Lone s) ∧ LoneSymbols ws := by
  constructor
  · intro h
    exact ⟨fun s hs => h s (by simp [hs]), fun s hs => h s (List.mem_cons_of_mem _ hs)⟩
  · rintro ⟨hw, hws⟩ s hs
    rcases List.mem_cons.mp hs with heq | hs
    · exact hw s heq.symm
    · exact hws s hs

theorem loneSymbols_of_tokenize {s : String} {ts : List Token}
    (h : tokenize .canonical s = .ok ts) : LoneSymbols (terminals ts) := by
  intro n hn
  obtain ⟨t, ht, heq⟩ := List.mem_map.mp hn
  obtain ⟨hsym, rfl⟩ := Token.terminal_eq_symbol.mp heq
  exact lone_of_mem h ht hsym

end BlockLang
