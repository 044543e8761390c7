import BlockLang.Proofs.Aliases.Runs

/-!
# Aliases as words

An alias is admitted if it is an identifier, and it is found in a text if it is cut off as one word.
The two classes of texts are not the same. Identifiers may hold marks that belong to a letter, as
the vowel signs of many scripts do, and signs that count as letters by name only; a word ends there.
So an alias works exactly if it is a word as well, which every alias of basic letters is.
-/

namespace BlockLang

open BlockLang.Text

/-! ## Words -/

/-- Does the text form one word? The empty text does not. -/
def isWord : List Char → Bool
  | [] => false
  | c :: cs => isWordStart c && cs.all isWordPart

section

variable {v : Vocabulary} {c : Char} {r cs text rest : List Char} {k : Keyword}

theorem isWord_cons :
    isWord (c :: cs) = true ↔ isWordStart c = true ∧ cs.all isWordPart = true := by
  rw [isWord, Bool.and_eq_true]

/-- **Keywords are words**: no other lexeme stands for one. -/
theorem Lexeme.isWord_of_keyword (h : Lexeme v c r (.keyword k) text rest) :
    isWord text = true := by
  generalize hk : Kind.keyword k = kind at h
  cases h with
  | word hc =>
    rw [List.takeWhile_cons_of_pos (isWordPart_of_isWordStart hc)]
    exact isWord_cons.mpr ⟨hc, List.all_takeWhile⟩
  | number _ _ h =>
    rw [cutNumber_kind h] at hk
    cases hk
  | quoted => cases hk
  | mark _ _ _ hm =>
    obtain ⟨before, behind, heq, -⟩ := List.lookup_eq_some_iff.mp hm
    have hmem : (c, Kind.keyword k) ∈ Kind.punctuation := by simp [heq, hk]
    have hno : ∀ entry ∈ Kind.punctuation, entry.2 ≠ .keyword k := by cases k <;> decide
    exact absurd rfl (hno _ hmem)

end

/-- **A text that stands for a keyword** is cut into that one token exactly if it is a word. -/
theorem tokenize_eq_keyword_iff {v : Vocabulary} {word : String} {k : Keyword}
    (hk : v.kindOf word = .keyword k) :
    tokenize v word = .ok [⟨.keyword k, word, 1, 1⟩] ↔ isWord word.toList = true := by
  constructor
  · intro h
    have hrun := tokenRun_of_tokensFrom h
    generalize hts : [Token.mk (.keyword k) word 1 1] = ts at hrun
    cases hrun with
    | nil => cases hts
    | stop => cases hts
    | lexeme _ hl _ _ =>
      injection hts with htoken _
      injection htoken with hkind hvalue _ _
      subst hkind hvalue
      simpa using hl.isWord_of_keyword
  · intro h
    cases hcs : word.toList with
    | nil =>
      rw [hcs] at h
      cases h
    | cons c r =>
      have hword : String.ofList (c :: r) = word := by rw [← hcs, String.ofList_toList]
      obtain ⟨hc, hr⟩ := isWord_cons.mp (hcs ▸ h)
      have hl := lexeme_word (v := v) hc (List.all_eq_true.mp hr)
      rw [hword, hk] at hl
      rw [tokenize, hcs, tokensFrom_lexeme hl (by simp), tokensFrom_eq, splitLayout_nil, hword]
      rfl

/-! ## Identifiers -/

/-- The basic characters of identifiers are characters of words. -/
theorem basic_classes : ∀ n < 128,
    (identifierStarts.has n = true → letters.has n = true) ∧
      (identifierParts.has n = true → letters.has n = true ∨ numerals.has n = true ∨ n = 95) := by
  decide +kernel

theorem isWordStart_of_basic {c : Char} (hc : c.toNat < 128)
    (h : (c == '_' || identifierStarts.contains c) = true) : isWordStart c = true := by
  rw [Bool.or_eq_true] at h
  rw [isWordStart, Bool.or_eq_true]
  exact h.symm.imp_left (basic_classes _ hc).1

theorem isWordPart_of_basic {c : Char} (hc : c.toNat < 128)
    (h : identifierParts.contains c = true) : isWordPart c = true := by
  rw [isWordPart, Bool.or_eq_true, Bool.or_eq_true]
  rcases (basic_classes _ hc).2 h with hletter | hnumeral | hlow
  · exact .inl (.inl hletter)
  · exact .inl (.inr hnumeral)
  · have heq : c = '_' := Char.toNat_inj.mp hlow
    exact .inr (by simp [heq])

/-- **An identifier of basic characters is a word.** -/
theorem isWord_of_isIdentifier {cs : List Char} (h : isIdentifier cs = true)
    (hbasic : ∀ c ∈ cs, c.toNat < 128) : isWord cs = true := by
  cases cs with
  | nil => cases h
  | cons c cs =>
    rw [isIdentifier, Bool.and_eq_true] at h
    obtain ⟨hc, hcs⟩ := List.forall_mem_cons.mp hbasic
    refine isWord_cons.mpr ⟨isWordStart_of_basic hc h.1, List.all_eq_true.mpr fun d hd => ?_⟩
    exact isWordPart_of_basic (hcs d hd) (List.all_eq_true.mp h.2 d hd)

/-! ## Aliases -/

namespace Aliases

/-- **An alias works exactly if it is a word.** After any calls, on aliases that start empty or
canonical, an alias in force has the keyword token of its keyword, and a source that consists of the
alias is cut into that token exactly if the alias is a word. Every alias of basic characters is
one. -/
theorem tokenize_alias_iff_isWord (start : Aliases) (hstart : start = {} ∨ start = canonical)
    (calls : List Call) (word : String) (k : Keyword)
    (h : Table.find? word (start.afterCalls calls).words = some k) :
    (start.afterCalls calls).token? word 1 1 = some ⟨.keyword k, word, 1, 1⟩ ∧
      (tokenize (start.afterCalls calls).vocabulary word = .ok [⟨.keyword k, word, 1, 1⟩] ↔
        isWord word.toList = true) ∧
      ((∀ c ∈ word.toList, c.toNat < 128) → isWord word.toList = true) := by
  have hstart : start.Sound := by
    rcases hstart with rfl | rfl
    · exact sound_empty
    · rw [← afterCalls_canonicalConfig]
      exact sound_empty.afterCalls _
  have hsound := hstart.afterCalls calls
  generalize start.afterCalls calls = a at h hsound
  have hkind : a.vocabulary.kindOf word = .keyword k := by
    rw [kindOf_vocabulary, h]
    rfl
  refine ⟨by rw [token?, h]; rfl, tokenize_eq_keyword_iff hkind, ?_⟩
  exact isWord_of_isIdentifier (hsound.identifier (Table.mem_of_find? h))

/-- An alias of basic letters. -/
theorem tokenize_alias_donnee :
    Table.find? "donnee" (canonical.afterCalls [donnee]).words = some .data ∧
      isWord "donnee".toList = true ∧
      tokenize (canonical.afterCalls [donnee]).vocabulary "donnee" =
        .ok [⟨.keyword .data, "donnee", 1, 1⟩] ∧
      (canonical.afterCalls [donnee]).token? "donnee" 1 1 =
        some ⟨.keyword .data, "donnee", 1, 1⟩ := by
  have hfind : Table.find? "donnee" (canonical.afterCalls [donnee]).words = some .data := by
    decide +kernel
  obtain ⟨htoken, hcut, hbasic⟩ :=
    tokenize_alias_iff_isWord canonical (.inr rfl) [donnee] "donnee" .data hfind
  have hword := hbasic (by simp)
  exact ⟨hfind, hword, hcut.mpr hword, htoken⟩

/-- A word with vowel signs, in letters of Devanagari. -/
def vowelSigns : String := "\u0921\u0947\u091f\u093e"

/-- As an alias it is taken over, and in a source it ends at its first vowel sign. -/
theorem tokenize_alias_vowelSigns :
    let c : Call := .configure [(.text vowelSigns, .text "DATA")]
    let a := canonical.afterCalls [c]
    canonical.call c = .ok a ∧ Table.find? vowelSigns a.words = some .data ∧
      a.token? vowelSigns 1 1 = some ⟨.keyword .data, vowelSigns, 1, 1⟩ ∧
      tokenize a.vocabulary vowelSigns =
        .error ((Fault.strayCharacter '\u0947').error ⟨1, 2⟩) := by
  decide +kernel

end Aliases

end BlockLang
