import BlockLang.Proofs.Aliases.Assignments
import BlockLang.Proofs.Token.Lone

/-!
# Configuring again and again

However often aliases are configured, and whether or not a configuration is taken over, a word keeps
the keyword that it stands for. So the canonical words keep theirs.
-/

namespace BlockLang

namespace Aliases

/-! ## One configuration -/

/-- **A word keeps its keyword** when a configuration is taken over. -/
theorem find?_configure {a a' : Aliases} {config : Config} (h : a.configure config = .ok a')
    {word : String} {k : Keyword} (hk : Table.find? word a.words = some k) :
    Table.find? word a'.words = some k :=
  (find?_configure_iff h).mpr (.inl hk)

/-! ## Any number of calls -/

/-- A call that may change what words stand for. -/
inductive Call where
  /-- A configuration given entry by entry. -/
  | configure (config : Config)
  /-- A configuration given as one value. -/
  | configureWith (value : Json)
  /-- The configuration in a keyword file. -/
  | load (content : Option ByteArray)

/-- What a call comes to. -/
def call (a : Aliases) : Call → Except ConfigError Aliases
  | .configure config => a.configure config
  | .configureWith value => a.configureWith value
  | .load content => a.load content

/-- The aliases after a call, which are the ones before it if it fails. -/
def afterCall (a : Aliases) (c : Call) : Aliases :=
  match a.call c with
  | .ok a' => a'
  | .error _ => a

/-- The aliases after several calls in turn. -/
def afterCalls (a : Aliases) (calls : List Call) : Aliases := calls.foldl afterCall a

/-- The configuration that a call is to take over, if it holds one. -/
def Call.config : Call → Except ConfigError Config
  | .configure config => .ok config
  | .configureWith (.object members) => .ok (members.map fun m => (.text m.1, m.2))
  | .configureWith _ => .error .noTable
  | .load content => do return .ofMembers (← fileMembers content)

/-- **Every call takes over its configuration**, if it holds one. -/
theorem call_eq (a : Aliases) (c : Call) : a.call c = c.config >>= a.configure := by
  cases c with
  | configure config => rfl
  | configureWith value => cases value <;> rfl
  | load content =>
    rw [call, load, Call.config]
    cases fileMembers content <;> rfl

/-- Every call that succeeds takes over a configuration. -/
theorem exists_configure {a a' : Aliases} {c : Call} (h : a.call c = .ok a') :
    ∃ config, c.config = .ok config ∧ a.configure config = .ok a' := by
  rw [call_eq] at h
  exact except_bind_eq_ok.mp h

theorem find?_afterCall {a : Aliases} (c : Call) {word : String} {k : Keyword}
    (hk : Table.find? word a.words = some k) : Table.find? word (a.afterCall c).words = some k := by
  unfold afterCall
  cases h : a.call c with
  | error e => exact hk
  | ok a' =>
    obtain ⟨config, -, hconfig⟩ := exists_configure h
    exact find?_configure hconfig hk

/-- **A word keeps its keyword** after any calls. -/
theorem find?_afterCalls {a : Aliases} (calls : List Call) {word : String} {k : Keyword}
    (hk : Table.find? word a.words = some k) :
    Table.find? word (a.afterCalls calls).words = some k := by
  induction calls generalizing a with
  | nil => exact hk
  | cons c calls ih => exact ih (find?_afterCall c hk)

end Aliases

/-! ## Vocabularies with aliases -/

/-- **A vocabulary with aliases**: a word stands for a keyword or is a symbol, and is a symbol only
if it is one canonically. -/
structure Vocabulary.Aliased (v : Vocabulary) : Prop where
  kindOf (word : String) : v.kindOf word = .symbol ∨ ∃ k, v.kindOf word = .keyword k
  symbol {word : String} : v.kindOf word = .symbol → canonical.kindOf word = .symbol

namespace Aliases

theorem kindOf_vocabulary (a : Aliases) (word : String) :
    a.vocabulary.kindOf word = ((Table.find? word a.words).map .keyword).getD .symbol := by
  rw [vocabulary, Vocabulary.kindOf, Table.find?_map]

/-- The canonical words are the canonical vocabulary. -/
theorem vocabulary_canonical : canonical.vocabulary = .canonical := by
  simp [vocabulary, canonical, canonicalWords, Vocabulary.canonical]

/-- The aliases after any calls make such a vocabulary. -/
theorem aliased_afterCalls (calls : List Call) :
    (canonical.afterCalls calls).vocabulary.Aliased where
  kindOf word := by
    rw [kindOf_vocabulary]
    cases Table.find? word (canonical.afterCalls calls).words with
    | none => exact .inl rfl
    | some k => exact .inr ⟨k, rfl⟩
  symbol {word} h := by
    rw [← vocabulary_canonical]
    rw [kindOf_vocabulary] at h ⊢
    cases hk : Table.find? word canonical.words with
    | none => rfl
    | some k =>
      rw [find?_afterCalls calls hk] at h
      cases h

end Aliases

end BlockLang
