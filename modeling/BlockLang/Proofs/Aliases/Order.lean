import BlockLang.Proofs.Aliases.Runs

/-!
# The order of configurations

Whether a configuration is taken over, and what words stand for then, depends on what its entries
say and not on their order. Configurations one after the other come to the one that holds all their
entries. So neither the order of the entries nor that of the configurations matters. What does
depend on the order is the order of the words, and which error is reported.
-/

namespace BlockLang

namespace Aliases

/-! ## Outcomes -/

/-- The same words are in force and stand for the same keywords. -/
def SameWords (a b : Aliases) : Prop := ∀ word, Table.find? word a.words = Table.find? word b.words

/-- **The same outcome**: both succeed, and then every word stands for the same keyword, or both
fail. -/
inductive SameOutcome : Except ConfigError Aliases → Except ConfigError Aliases → Prop
  | taken {a b : Aliases} : a.SameWords b → SameOutcome (.ok a) (.ok b)
  | refused {e f : ConfigError} : SameOutcome (.error e) (.error f)

namespace SameOutcome

variable {x y z : Except ConfigError Aliases}

/-- Two outcomes are the same if one is a success whenever the other is, and the words are then the
same. -/
theorem of_ok (hiff : (∃ a, x = .ok a) ↔ ∃ b, y = .ok b)
    (hwords : ∀ a b, x = .ok a → y = .ok b → a.SameWords b) : SameOutcome x y := by
  cases x with
  | ok a =>
    obtain ⟨b, rfl⟩ := hiff.mp ⟨a, rfl⟩
    exact .taken (hwords a b rfl rfl)
  | error e =>
    cases y with
    | ok b =>
      obtain ⟨a, ha⟩ := hiff.mpr ⟨b, rfl⟩
      cases ha
    | error f => exact .refused

theorem sameWords {a b : Aliases} (h : SameOutcome (.ok a) (.ok b)) : a.SameWords b := by
  cases h with
  | taken h => exact h

theorem symm (h : SameOutcome x y) : SameOutcome y x := by
  cases h with
  | taken h => exact .taken fun word => (h word).symm
  | refused => exact .refused

theorem trans (h : SameOutcome x y) (h' : SameOutcome y z) : SameOutcome x z := by
  cases h with
  | taken h =>
    cases h' with
    | taken h' => exact .taken fun word => (h word).trans (h' word)
  | refused =>
    cases h' with
    | refused => exact .refused

end SameOutcome

/-! ## One configuration -/

variable {a b : Aliases} {c c' : Config}

/-- **What decides an outcome**: the words in force, whether a configuration can be read, and what
it gives. -/
theorem sameOutcome_configure (hab : a.SameWords b) (hlegible : c.Legible ↔ c'.Legible)
    (hgives : ∀ word k, c.Gives word k ↔ c'.Gives word k) :
    SameOutcome (a.configure c) (b.configure c') := by
  have hadmits : a.words.Admits c.Gives ↔ b.words.Admits c'.Gives := by
    constructor
    · intro h
      exact ⟨fun hg hf => h.known ((hgives _ _).mpr hg) ((hab _).trans hf),
        fun hg hg' => h.unique ((hgives _ _).mpr hg) ((hgives _ _).mpr hg')⟩
    · intro h
      exact ⟨fun hg hf => h.known ((hgives _ _).mp hg) ((hab _).symm.trans hf),
        fun hg hg' => h.unique ((hgives _ _).mp hg) ((hgives _ _).mp hg')⟩
  refine .of_ok ?_ fun a' b' ha hb word => ?_
  · rw [exists_configure_iff, exists_configure_iff, hlegible, hadmits]
  · ext k
    rw [find?_configure_iff ha, find?_configure_iff hb, hab word, hgives word k]

/-- The order of the entries does not matter, nor does it how often one is there. -/
theorem sameOutcome_of_mem_iff (h : ∀ entry, entry ∈ c ↔ entry ∈ c') :
    SameOutcome (a.configure c) (a.configure c') := by
  refine sameOutcome_configure (fun _ => rfl) ?_ fun word k => ?_
  · simp only [Config.Legible, h]
  · simp only [Config.Gives, h]

/-- One more configuration makes the same of the same outcome. -/
theorem SameOutcome.configure {x y : Except ConfigError Aliases} (h : SameOutcome x y)
    (c : Config) : SameOutcome (x >>= fun b => b.configure c) (y >>= fun b => b.configure c) := by
  cases h with
  | taken hwords => exact sameOutcome_configure hwords .rfl fun _ _ => .rfl
  | refused => exact .refused

/-! ## Several configurations -/

theorem Config.legible_append : Config.Legible (c ++ c') ↔ c.Legible ∧ c'.Legible :=
  List.forall_mem_append

theorem Config.gives_append {word : String} {k : Keyword} :
    Config.Gives (c ++ c') word k ↔ c.Gives word k ∨ c'.Gives word k := by
  simp only [Config.Gives, List.mem_append, or_and_right, exists_or]

/-- **A second configuration** is admitted behind a first one if both are admitted together. -/
theorem admits_append_iff (h : a.configure c = .ok b) :
    b.words.Admits c'.Gives ↔ a.words.Admits (Config.Gives (c ++ c')) := by
  obtain ⟨-, hfirst⟩ := exists_configure_iff.mp ⟨b, h⟩
  constructor
  · intro hsecond
    refine ⟨fun hg hf => ?_, fun hg hg' => ?_⟩
    · rcases Config.gives_append.mp hg with hg | hg
      · exact hfirst.known hg hf
      · exact hsecond.known hg (find?_configure h hf)
    · -- what the first one gives is known when the second one is taken over
      have hknown : ∀ {word k}, c.Gives word k → Table.find? word b.words = some k :=
        fun hg => (find?_configure_iff h).mpr (.inr hg)
      rcases Config.gives_append.mp hg with hg | hg <;>
        rcases Config.gives_append.mp hg' with hg' | hg'
      · exact hfirst.unique hg hg'
      · exact (hsecond.known hg' (hknown hg)).symm
      · exact hsecond.known hg (hknown hg')
      · exact hsecond.unique hg hg'
  · intro hboth
    have hleft : ∀ {word k}, c.Gives word k → Config.Gives (c ++ c') word k :=
      fun hg => Config.gives_append.mpr (.inl hg)
    have hright : ∀ {word k}, c'.Gives word k → Config.Gives (c ++ c') word k :=
      fun hg => Config.gives_append.mpr (.inr hg)
    refine ⟨fun hg hf => ?_, fun hg hg' => hboth.unique (hright hg) (hright hg')⟩
    rcases (find?_configure_iff h).mp hf with hf | hf
    · exact hboth.known (hright hg) hf
    · exact hboth.unique (hright hg) (hleft hf)

/-- **Two configurations in turn** come to the one that holds the entries of both. -/
theorem sameOutcome_append (a : Aliases) (c c' : Config) :
    SameOutcome (a.configure c >>= fun b => b.configure c') (a.configure (c ++ c')) := by
  refine .of_ok ?_ fun b₁ b₂ h₁ h₂ word => ?_
  · simp only [except_bind_eq_ok]
    constructor
    · rintro ⟨b', b, hb, hb'⟩
      obtain ⟨hlegible', hadmits'⟩ := exists_configure_iff.mp ⟨b', hb'⟩
      have hlegible := (exists_configure_iff.mp ⟨b, hb⟩).1
      exact exists_configure_iff.mpr
        ⟨Config.legible_append.mpr ⟨hlegible, hlegible'⟩, (admits_append_iff hb).mp hadmits'⟩
    · intro hboth
      obtain ⟨hlegible, hadmits⟩ := exists_configure_iff.mp hboth
      obtain ⟨hfirst, hsecond⟩ := Config.legible_append.mp hlegible
      obtain ⟨b, hb⟩ := exists_configure_iff.mpr
        ⟨hfirst, hadmits.mono fun hg => Config.gives_append.mpr (.inl hg)⟩
      obtain ⟨b', hb'⟩ := exists_configure_iff.mpr ⟨hsecond, (admits_append_iff hb).mpr hadmits⟩
      exact ⟨b', b, hb, hb'⟩
  · obtain ⟨b, hb, hb₁⟩ := except_bind_eq_ok.mp h₁
    ext k
    rw [find?_configure_iff hb₁, find?_configure_iff hb, find?_configure_iff h₂,
      Config.gives_append, or_assoc]

/-- **Any number of configurations in turn** come to the one that holds all their entries. -/
theorem sameOutcome_flatten (a : Aliases) (cs : List Config) :
    SameOutcome (cs.foldlM configure a) (a.configure cs.flatten) := by
  -- the induction is on the end, where one more configuration meets what the others came to
  induction cs using List.reverseRecOn with
  | nil => exact .taken fun _ => rfl
  | append_singleton cs c ih =>
    rw [List.foldlM_append, List.flatten_append, List.flatten_singleton]
    simp only [List.foldlM_cons, List.foldlM_nil, bind_pure]
    exact (ih.configure c).trans (sameOutcome_append a cs.flatten c)

/-- **The order of configurations does not matter.** -/
theorem sameOutcome_perm (a : Aliases) {cs cs' : List Config} (h : cs.Perm cs') :
    SameOutcome (cs.foldlM configure a) (cs'.foldlM configure a) := by
  have hflatten : SameOutcome (a.configure cs.flatten) (a.configure cs'.flatten) :=
    sameOutcome_of_mem_iff fun _ => h.flatten.mem_iff
  exact (sameOutcome_flatten a cs).trans (hflatten.trans (sameOutcome_flatten a cs').symm)

/-- **No order matters**: two configurations come to the same in either order, and so does one
configuration with its entries in any order. -/
theorem configure_anyOrder (a : Aliases) :
    (∀ c c' : Config, SameOutcome (a.configure c >>= fun b => b.configure c')
        (a.configure c' >>= fun b => b.configure c)) ∧
      ∀ c c' : Config, c.Perm c' → SameOutcome (a.configure c) (a.configure c') := by
  refine ⟨fun c c' => ?_, fun c c' h => sameOutcome_of_mem_iff fun _ => h.mem_iff⟩
  simpa using sameOutcome_perm a (List.Perm.swap c' c [])

/-- A group of aliases for one keyword. -/
def records : Config := [(.array [.text "donnee", .text "record"], .text "DATA")]

/-- Two aliases, of which one is in that group as well. -/
def donneeFaire : Config := [(.text "faire", .text "DO"), (.text "donnee", .text "DATA")]

/-- The words come in another order, and stand for the same keywords. -/
theorem configure_anyOrder_records :
    ∃ b b', (configure {} records >>= fun a => a.configure donneeFaire) = .ok b ∧
      (configure {} donneeFaire >>= fun a => a.configure records) = .ok b' ∧
      b.words ≠ b'.words ∧ b.SameWords b' ∧ donneeFaire.Perm donneeFaire.reverse ∧
      SameOutcome (configure {} donneeFaire) (configure {} donneeFaire.reverse) := by
  obtain ⟨hturns, hentries⟩ := configure_anyOrder {}
  have hperm : donneeFaire.Perm donneeFaire.reverse := donneeFaire.reverse_perm.symm
  have h : (configure {} records >>= fun a => a.configure donneeFaire) =
      .ok ⟨[("donnee", .data), ("record", .data), ("faire", .doWord)],
        [("donnee", .data), ("record", .data), ("faire", .doWord)]⟩ :=
    toOption_eq_some.mp (by decide +kernel)
  have h' : (configure {} donneeFaire >>= fun a => a.configure records) =
      .ok ⟨[("faire", .doWord), ("donnee", .data), ("record", .data)],
        [("faire", .doWord), ("donnee", .data), ("record", .data)]⟩ :=
    toOption_eq_some.mp (by decide +kernel)
  have hsame := hturns records donneeFaire
  rw [h, h'] at hsame
  exact ⟨_, _, h, h', by decide, hsame.sameWords, hperm, hentries _ _ hperm⟩

end Aliases

end BlockLang
