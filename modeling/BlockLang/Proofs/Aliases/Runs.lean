import BlockLang.Proofs.Aliases.Calls

/-!
# What any run of calls keeps

Aliases that are made by calls alone are sound: every word is an identifier, no word is there twice,
and the report holds what is in force. A call is carried out in place, on two tables that change one
after the other. Even so a call that fails changes neither, whatever it fails for, and a call that
succeeds only adds words at the end of both. A call succeeds only if every name in its configuration
is one of a keyword, which the words in a table cannot say, as they are kept with the keyword
itself.
-/

namespace BlockLang

namespace Aliases

/-! ## Sound aliases -/

/-- **Sound aliases**: the same words are in force and in the report, in the same order, and each is
an identifier. That each stands for a keyword is in the type of the table. -/
structure Sound (a : Aliases) : Prop where
  reported : a.configured = a.words
  identifier {entry} : entry ∈ a.words → Text.isIdentifier entry.1.toList = true
  distinct : (a.words.map (·.1)).Nodup

/-- The words of `a` with new words behind them. -/
def Extends (a a' : Aliases) : Prop :=
  ∃ new, a'.words = a.words ++ new ∧ ∀ entry ∈ new, Table.find? entry.1 a.words = none

theorem sound_empty : Sound {} where
  reported := rfl
  identifier h := absurd h List.not_mem_nil
  distinct := List.nodup_nil

/-- What a configuration assigns are identifiers. -/
theorem identifier_of_mem_assignments {config : Config} {entries : List (String × Keyword)}
    (h : assignments config = .ok entries) {entry : String × Keyword} (hmem : entry ∈ entries) :
    Text.isIdentifier entry.1.toList = true := by
  obtain ⟨_, _, _, _, _, _, _, hword⟩ := (mem_assignments h).mp hmem
  exact (wordOf_eq_ok.mp hword).2

/-- **Taking over a configuration** keeps aliases sound. -/
theorem Sound.configure {a a' : Aliases} {config : Config} (ha : a.Sound)
    (h : a.configure config = .ok a') : a'.Sound := by
  obtain ⟨entries, hread, -, rfl⟩ := configure_eq_ok_iff.mp h
  refine ⟨?_, fun {entry} hmem => ?_, Table.nodup_keys_putAll ha.distinct _⟩
  · rw [ha.reported]
  · rcases Table.mem_of_mem_putAll hmem with hold | hnew
    · exact ha.identifier hold
    · exact identifier_of_mem_assignments hread (Table.mem_of_mem_ofEntries hnew)

/-- **Taking over a configuration** adds words at the end. -/
theorem extends_configure {a a' : Aliases} {config : Config} (h : a.configure config = .ok a') :
    a.Extends a' := by
  obtain ⟨entries, -, hadmits, rfl⟩ := configure_eq_ok_iff.mp h
  exact hadmits.ofEntries.putAll_eq_append

theorem Sound.afterCall {a : Aliases} (ha : a.Sound) (c : Call) : (a.afterCall c).Sound := by
  unfold Aliases.afterCall
  cases h : a.call c with
  | error e => exact ha
  | ok a' =>
    obtain ⟨config, -, hconfig⟩ := exists_configure h
    exact ha.configure hconfig

/-- **Any calls keep aliases sound.** -/
theorem Sound.afterCalls {a : Aliases} (ha : a.Sound) (calls : List Call) :
    (a.afterCalls calls).Sound := by
  induction calls generalizing a with
  | nil => exact ha
  | cons c calls ih => exact ih (ha.afterCall c)

/-! ## Names of keywords -/

/-- Every name in a configuration is one of a keyword. -/
def Config.Named (config : Config) : Prop :=
  ∀ entry ∈ config, ∃ k : Keyword, entry.2 = .text (.ofString k.name)

/-- **No other name is known**: only a configuration in which every name is one of a keyword is
taken over. -/
theorem named_of_configure {a a' : Aliases} {config : Config} (h : a.configure config = .ok a') :
    config.Named := by
  obtain ⟨entries, hread, -, -⟩ := configure_eq_ok_iff.mp h
  intro entry hentry
  obtain ⟨⟨k, hk⟩, -⟩ := exists_assignments.mp ⟨entries, hread⟩ entry hentry
  exact ⟨k, keywordOf_eq_ok.mp hk⟩

/-! ## Calls in place -/

/-- Takes over a configuration in place, first in the words in force and then in the report. -/
def takeOver (config : Config) : EStateM ConfigError Aliases Unit := do
  -- nothing undoes a change, so all that may fail comes in front of the first one
  let d ← ofExcept (draft (← get).words config)
  if d.conflicts.isEmpty then
    modify fun a => { a with words := a.words.putAll d.words }
    modify fun a => { a with configured := a.configured.putAll d.words }
  else throw (.collisions d.conflicts)

/-- Carries out a call in place. -/
def Call.perform : Call → EStateM ConfigError Aliases Unit
  | .configure config => takeOver config
  | .configureWith (.object members) => takeOver (members.map fun m => (.text m.1, m.2))
  | .configureWith _ => throw .noTable
  | .load content => do takeOver (.ofMembers (← ofExcept (fileMembers content)))

/-- What is read without a look at the state leaves it as it is. -/
theorem run_ofExcept {ε σ α : Type} (x : Except ε α) (s : σ) :
    (ofExcept x : EStateM ε σ α).run s = match x with
      | .ok a => .ok a s
      | .error e => .error e s := by
  cases x <;> rfl

/-- In place, a configuration is taken over in both tables or in neither. -/
theorem run_takeOver (config : Config) (a : Aliases) :
    (takeOver config).run a = match a.configure config with
      | .ok a' => .ok () a'
      | .error e => .error e a := by
  unfold takeOver
  cases hdraft : draft a.words config with
  | error e =>
    have hconfigure : a.configure config = .error e := by
      rw [Aliases.configure, hdraft]
      rfl
    simp [hconfigure, hdraft, run_ofExcept]
  | ok d =>
    have hconfigure : a.configure config =
        if d.conflicts.isEmpty then .ok ⟨a.words.putAll d.words, a.configured.putAll d.words⟩
        else .error (.collisions d.conflicts) := by
      rw [Aliases.configure, hdraft]
      rfl
    rw [hconfigure]
    by_cases hd : d.conflicts = []
    · simp [hdraft, hd, run_ofExcept]
    · simp [hdraft, hd, run_ofExcept]

/-- **A call in place** leaves what the call comes to, or what was there before if it fails. -/
theorem run_perform (c : Call) (a : Aliases) :
    c.perform.run a = match a.call c with
      | .ok a' => .ok () a'
      | .error e => .error e a := by
  cases c with
  | configure config => exact run_takeOver config a
  | configureWith value =>
    cases value with
    | object members => exact run_takeOver _ a
    | _ => rfl
  | load content =>
    have hcall : a.call (.load content) =
        fileMembers content >>= fun members => a.configure (.ofMembers members) := rfl
    rw [hcall, Call.perform, EStateM.run_bind, run_ofExcept]
    cases fileMembers content with
    | error e => rfl
    | ok members => exact run_takeOver _ a

/-- **What a call does in place**: it fails and neither table changes, or it succeeds. Then it holds
a configuration that names nothing but keywords, the words there are stay in front of those it adds,
and what it adds is what the configuration gives. -/
inductive Call.Leads (c : Call) (a : Aliases) : Aliases → Prop
  | fails {e : ConfigError} : c.perform.run a = .error e a → c.Leads a a
  | succeeds {a' : Aliases} {config : Config} : c.perform.run a = .ok () a' →
      c.config = .ok config → config.Named → a.Extends a' →
      (∀ {word k}, Table.find? word a'.words = some k ↔
        Table.find? word a.words = some k ∨ config.Gives word k) → c.Leads a a'

theorem leads_afterCall (c : Call) (a : Aliases) : c.Leads a (a.afterCall c) := by
  have hrun := run_perform c a
  unfold afterCall
  cases h : a.call c with
  | error e =>
    rw [h] at hrun
    exact .fails hrun
  | ok a' =>
    rw [h] at hrun
    obtain ⟨config, hholds, hconfig⟩ := exists_configure h
    exact .succeeds hrun hholds (named_of_configure hconfig) (extends_configure hconfig)
      (find?_configure_iff hconfig)

/-- **A call that names something else** than keywords fails, and neither table changes. -/
theorem run_perform_of_not_named {c : Call} {config : Config} (hholds : c.config = .ok config)
    (hnamed : ¬ config.Named) (a : Aliases) : ∃ e, c.perform.run a = .error e a := by
  rw [run_perform, call_eq, hholds]
  cases h : a.configure config with
  | error e => exact ⟨e, by simp only [bind, Except.bind, h]⟩
  | ok a' => exact absurd (named_of_configure h) hnamed

/-! ## Runs -/

/-- The canonical words as a configuration. -/
def canonicalConfig : Config := canonicalWords.map fun w => (.text w.1, .text w.2.name)

/-- The canonical words are configured like any others. -/
theorem afterCalls_canonicalConfig : afterCalls {} [.configure canonicalConfig] = canonical := by
  decide +kernel

theorem afterCalls_concat (a : Aliases) (calls : List Call) (c : Call) :
    a.afterCalls (calls ++ [c]) = (a.afterCalls calls).afterCall c := by
  rw [afterCalls, List.foldl_append]
  rfl

/-- **Any run of calls**, on aliases that start empty or canonical, leaves sound aliases, and the
next call changes both tables or neither. -/
theorem sound_afterCalls (start : Aliases) (hstart : start = {} ∨ start = canonical)
    (calls : List Call) (c : Call) :
    (start.afterCalls calls).Sound ∧
      c.Leads (start.afterCalls calls) (start.afterCalls (calls ++ [c])) := by
  have hsound : start.Sound := by
    rcases hstart with rfl | rfl
    · exact sound_empty
    · rw [← afterCalls_canonicalConfig]
      exact sound_empty.afterCalls _
  rw [afterCalls_concat]
  exact ⟨hsound.afterCalls calls, leads_afterCall c _⟩

/-- A call that gives `data` the alias `donnee`. -/
def donnee : Call := .configure [(.text "donnee", .text "DATA")]

/-- A call with two aliases, of which the second is for no keyword. -/
def halfway : Call := .configure [(.text "faire", .text "DO"), (.text "soit", .text "VAR")]

/-- The first of them is not taken over either. -/
theorem sound_afterCalls_halfway :
    (canonical.afterCalls [donnee]).Sound ∧
      canonical.afterCalls [donnee, halfway] = canonical.afterCalls [donnee] ∧
      halfway.Leads (canonical.afterCalls [donnee]) (canonical.afterCalls [donnee, halfway]) := by
  obtain ⟨hsound, hleads⟩ := sound_afterCalls canonical (.inr rfl) [donnee] halfway
  exact ⟨hsound, by decide +kernel, hleads⟩

end Aliases

end BlockLang
