import BlockLang.Aliases.File
import BlockLang.Proofs.Aliases.Admits

/-!
# What a configuration assigns

A configuration is read entry by entry, and conflicts are looked for on the way. Reading comes to a
list of assignments of keywords to words, and a configuration is taken over exactly if it can be
read and the words in force admit these assignments.
-/

namespace BlockLang

open BlockLang.Text
open BlockLang.Table (GivenBy)

/-! ## Runs that may fail -/

section

variable {ε α β γ : Type}

/-- Two steps that may fail succeed if both do. -/
theorem except_bind_eq_ok {x : Except ε α} {f : α → Except ε β} {b : β} :
    (x >>= f) = .ok b ↔ ∃ a, x = .ok a ∧ f a = .ok b := by
  cases x <;> simp [bind, Except.bind]

/-- They fail if the first one does, or the second one behind it. -/
theorem except_bind_eq_error {x : Except ε α} {f : α → Except ε β} {e : ε} :
    (x >>= f) = .error e ↔ x = .error e ∨ ∃ a, x = .ok a ∧ f a = .error e := by
  cases x <;> simp [bind, Except.bind]

theorem toOption_eq_some {x : Except ε α} {a : α} : x.toOption = some a ↔ x = .ok a := by
  cases x <;> simp [Except.toOption]

/-- Everything can be read if each can. -/
theorem exists_mapM_eq_ok {f : α → Except ε β} {as : List α} :
    (∃ bs, as.mapM f = .ok bs) ↔ ∀ a ∈ as, ∃ b, f a = .ok b := by
  induction as with
  | nil => simp [pure, Except.pure]
  | cons a as ih =>
    rw [List.forall_mem_cons, ← ih]
    simp only [List.mapM_cons, except_bind_eq_ok]
    constructor
    · rintro ⟨_, b, hb, bs, hbs, -⟩
      exact ⟨⟨b, hb⟩, bs, hbs⟩
    · rintro ⟨⟨b, hb⟩, bs, hbs⟩
      exact ⟨b :: bs, b, hb, bs, hbs, rfl⟩

/-- What is read is read from one of them. -/
theorem mem_of_mapM_eq_ok {f : α → Except ε β} {as : List α} {bs : List β}
    (h : as.mapM f = .ok bs) {b : β} : b ∈ bs ↔ ∃ a ∈ as, f a = .ok b := by
  induction as generalizing bs with
  | nil =>
    cases h
    simp
  | cons a as ih =>
    rw [List.mapM_cons] at h
    obtain ⟨first, hfirst, h⟩ := except_bind_eq_ok.mp h
    obtain ⟨others, hothers, h⟩ := except_bind_eq_ok.mp h
    cases h
    rw [List.mem_cons, ih hothers, List.exists_mem_cons_iff, hfirst, Except.ok.injEq,
      eq_comm (a := b)]

/-- Reading stops at the first that cannot be read. -/
theorem mapM_eq_error {f : α → Except ε β} {as : List α} {e : ε} :
    as.mapM f = .error e ↔ ∃ before a behind, as = before ++ a :: behind ∧
      (∀ b ∈ before, ∃ c, f b = .ok c) ∧ f a = .error e := by
  induction as with
  | nil => simp [pure, Except.pure]
  | cons a as ih =>
    have hfirst : (a :: as).mapM f = .error e ↔
        f a = .error e ∨ (∃ c, f a = .ok c) ∧ as.mapM f = .error e := by
      simp [List.mapM_cons, except_bind_eq_error, pure, Except.pure]
    rw [hfirst, ih]
    constructor
    · rintro (ha | ⟨hok, before, b, behind, rfl, hbefore, hb⟩)
      · exact ⟨[], a, as, rfl, by simp, ha⟩
      · exact ⟨a :: before, b, behind, rfl, List.forall_mem_cons.mpr ⟨hok, hbefore⟩, hb⟩
    · rintro ⟨before, b, behind, heq, hbefore, hb⟩
      cases before with
      | nil =>
        cases heq
        exact .inl hb
      | cons c before =>
        obtain ⟨rfl, rfl⟩ := List.cons.inj heq
        obtain ⟨hok, hbefore⟩ := List.forall_mem_cons.mp hbefore
        exact .inr ⟨hok, before, b, behind, rfl, hbefore, hb⟩

/-- **Reading comes first**: a run whose every step reads something and goes on with what it read
is reading everything and then going on. -/
theorem foldlM_eq_mapM {f : β → α → Except ε β} {g : α → Except ε γ} {h : β → γ → β}
    (hf : ∀ b a, f b a = (g a).map (h b)) (as : List α) (b : β) :
    as.foldlM f b = (as.mapM g).map (·.foldl h b) := by
  induction as generalizing b with
  | nil => rfl
  | cons a as ih =>
    rw [List.foldlM_cons, List.mapM_cons, hf]
    cases g a with
    | error e => rfl
    | ok c =>
      refine (ih (h b c)).trans ?_
      cases as.mapM g <;> rfl

end

namespace Aliases

/-! ## Reading a configuration -/

/-- The word that an alias is, which has to be an identifier. -/
def wordOf (given : LooseText) : Except ConfigError String :=
  match given.toString?.filter fun word => isIdentifier word.toList with
  | some word => .ok word
  | none => .error (.invalidWord given)

theorem wordOf_eq_ok {given : LooseText} {word : String} :
    wordOf given = .ok word ↔ given = .ofString word ∧ isIdentifier word.toList = true := by
  unfold wordOf
  rw [← LooseText.toString?_eq_some]
  cases hword : given.toString?.filter fun word => isIdentifier word.toList with
  | none =>
    rw [Option.filter_eq_none_iff] at hword
    simpa using fun hgiven => by simpa using hword word hgiven
  | some w =>
    obtain ⟨hgiven, hw⟩ := Option.filter_eq_some_iff.mp hword
    rw [hgiven, Except.ok.injEq, Option.some.injEq]
    exact ⟨fun heq => ⟨heq, heq ▸ hw⟩, fun h => h.1⟩

theorem keywordOf_eq_ok {name : Json} {k : Keyword} :
    keywordOf name = .ok k ↔ name = .text (.ofString k.name) := by
  cases name with
  | text s =>
    have hname : s.toString?.bind Keyword.ofName? = some k ↔ s = .ofString k.name := by
      rw [Option.bind_eq_some_iff]
      constructor
      · rintro ⟨w, hw, hk⟩
        rw [LooseText.toString?_eq_some.mp hw, Keyword.name_of_ofName? hk]
      · rintro rfl
        exact ⟨k.name, LooseText.toString?_eq_some.mpr rfl, Keyword.ofName?_name k⟩
    rw [keywordOf, Json.text.injEq, ← hname]
    cases s.toString?.bind Keyword.ofName? <;> simp
  | _ => simp [keywordOf]

/-- What an entry assigns: its keyword to each of its aliases. -/
def assignmentsOf (entry : Json × Json) : Except ConfigError (List (String × Keyword)) := do
  let k ← keywordOf entry.2
  let aliases ← aliasesOf entry.1
  return (← aliases.mapM wordOf).map (·, k)

/-- What a configuration assigns, in order. -/
def assignments (config : Config) : Except ConfigError (List (String × Keyword)) := do
  return (← config.mapM assignmentsOf).flatten

/-- A configuration gives a word a keyword: an entry with the name of the keyword holds the word
among its aliases. -/
def Config.Gives (config : Config) (word : String) (k : Keyword) : Prop :=
  ∃ entry ∈ config, keywordOf entry.2 = .ok k ∧
    ∃ aliases, aliasesOf entry.1 = .ok aliases ∧ ∃ given ∈ aliases, wordOf given = .ok word

/-- A configuration can be read: every name is one of a keyword, and every alias is an
identifier. -/
def Config.Legible (config : Config) : Prop :=
  ∀ entry ∈ config, (∃ k, keywordOf entry.2 = .ok k) ∧
    ∃ aliases, aliasesOf entry.1 = .ok aliases ∧ ∀ given ∈ aliases, ∃ word, wordOf given = .ok word

theorem assignmentsOf_eq_ok {entry : Json × Json} {entries : List (String × Keyword)} :
    assignmentsOf entry = .ok entries ↔ ∃ k, keywordOf entry.2 = .ok k ∧
      ∃ aliases, aliasesOf entry.1 = .ok aliases ∧
        ∃ words, aliases.mapM wordOf = .ok words ∧ words.map (·, k) = entries := by
  simp only [assignmentsOf, except_bind_eq_ok, pure, Except.pure, Except.ok.injEq]

/-- What is assigned is what the configuration gives. -/
theorem mem_assignments {config : Config} {entries : List (String × Keyword)}
    (h : assignments config = .ok entries) {word : String} {k : Keyword} :
    (word, k) ∈ entries ↔ config.Gives word k := by
  obtain ⟨groups, hgroups, h⟩ := except_bind_eq_ok.mp h
  cases h
  rw [List.mem_flatten]
  constructor
  · rintro ⟨group, hgroup, hmem⟩
    obtain ⟨entry, hentry, hread⟩ := (mem_of_mapM_eq_ok hgroups).mp hgroup
    obtain ⟨k', hk, aliases, haliases, words, hwords, rfl⟩ := assignmentsOf_eq_ok.mp hread
    obtain ⟨w, hw, heq⟩ := List.mem_map.mp hmem
    cases heq
    exact ⟨entry, hentry, hk, aliases, haliases, (mem_of_mapM_eq_ok hwords).mp hw⟩
  · rintro ⟨entry, hentry, hk, aliases, haliases, hgiven⟩
    obtain ⟨group, hread⟩ := exists_mapM_eq_ok.mp ⟨groups, hgroups⟩ entry hentry
    refine ⟨group, (mem_of_mapM_eq_ok hgroups).mpr ⟨entry, hentry, hread⟩, ?_⟩
    obtain ⟨k', hk', aliases', haliases', words, hwords, rfl⟩ := assignmentsOf_eq_ok.mp hread
    rw [hk, Except.ok.injEq] at hk'
    rw [haliases, Except.ok.injEq] at haliases'
    subst hk' haliases'
    exact List.mem_map.mpr ⟨word, (mem_of_mapM_eq_ok hwords).mpr hgiven, rfl⟩

/-- An entry can be read if its name is one of a keyword and its aliases are identifiers. -/
theorem exists_assignmentsOf {entry : Json × Json} :
    (∃ entries, assignmentsOf entry = .ok entries) ↔ (∃ k, keywordOf entry.2 = .ok k) ∧
      ∃ aliases, aliasesOf entry.1 = .ok aliases ∧
        ∀ given ∈ aliases, ∃ word, wordOf given = .ok word := by
  simp only [assignmentsOf_eq_ok, ← exists_mapM_eq_ok]
  constructor
  · rintro ⟨_, k, hk, aliases, haliases, words, hwords, -⟩
    exact ⟨⟨k, hk⟩, aliases, haliases, words, hwords⟩
  · rintro ⟨⟨k, hk⟩, aliases, haliases, words, hwords⟩
    exact ⟨_, k, hk, aliases, haliases, words, hwords, rfl⟩

/-- Assignments are read off exactly the configurations that can be read. -/
theorem exists_assignments {config : Config} :
    (∃ entries, assignments config = .ok entries) ↔ config.Legible := by
  have hgroups : (∃ entries, assignments config = .ok entries) ↔
      ∃ groups, config.mapM assignmentsOf = .ok groups := by
    constructor
    · rintro ⟨entries, h⟩
      obtain ⟨groups, hgroups, -⟩ := except_bind_eq_ok.mp h
      exact ⟨groups, hgroups⟩
    · rintro ⟨groups, hgroups⟩
      exact ⟨groups.flatten, except_bind_eq_ok.mpr ⟨groups, hgroups, rfl⟩⟩
  rw [hgroups, exists_mapM_eq_ok]
  exact forall₂_congr fun entry _ => exists_assignmentsOf

/-! ## Drafts -/

/-- What a word stands for, in a draft or else in force. -/
def Draft.meaning (known : Table String Keyword) (d : Draft) (word : String) : Option Keyword :=
  (Table.find? word d.words).orElse fun _ => Table.find? word known

/-- A draft with one more assignment, which is a conflict if its word stands for another keyword. -/
def Draft.note (known : Table String Keyword) (d : Draft) (entry : String × Keyword) : Draft :=
  match d.meaning known entry.1 with
  | none => { d with words := d.words.put entry.1 entry.2 }
  | some existing =>
    if existing = entry.2 then { d with words := d.words.put entry.1 entry.2 }
    else { d with conflicts := d.conflicts ++ [⟨entry.1, existing, entry.2⟩] }

variable {known : Table String Keyword}

theorem assign_eq (k : Keyword) (d : Draft) (given : LooseText) :
    assign known k d given = (wordOf given).map fun word => d.note known (word, k) := by
  unfold assign wordOf Draft.note Draft.meaning
  cases given.toString?.filter fun word => isIdentifier word.toList with
  | none => rfl
  | some word =>
    dsimp only [Except.map]
    cases (Table.find? word d.words).orElse fun _ => Table.find? word known with
    | none => rfl
    | some existing => exact (apply_ite Except.ok _ _ _).symm

theorem assignGroup_eq (d : Draft) (entry : Json × Json) :
    assignGroup known d entry = (assignmentsOf entry).map (·.foldl (Draft.note known) d) := by
  unfold assignGroup assignmentsOf
  cases keywordOf entry.2 with
  | error e => rfl
  | ok k =>
    cases aliasesOf entry.1 with
    | error e => rfl
    | ok aliases =>
      refine (foldlM_eq_mapM (assign_eq k) aliases d).trans ?_
      cases hws : aliases.mapM wordOf with
      | error e => simp [hws, bind, Except.bind, Except.map]
      | ok words => simp [hws, bind, Except.bind, Except.map, pure, Except.pure, List.foldl_map]

/-- **A draft is the assignments of a configuration**, noted one after the other. -/
theorem draft_eq (config : Config) :
    draft known config = (assignments config).map (·.foldl (Draft.note known) {}) := by
  refine (foldlM_eq_mapM assignGroup_eq config {}).trans ?_
  unfold assignments
  cases config.mapM assignmentsOf with
  | error e => rfl
  | ok groups => simp [bind, Except.bind, Except.map, pure, Except.pure, List.foldl_flatten]

/-! ## Conflicts -/

section

variable {word : String} {k : Keyword} {entries : List (String × Keyword)}

/-- An assignment is put into a draft if its word stands for nothing else, and is a conflict
otherwise. -/
theorem note_cases (known : Table String Keyword) (d : Draft) (word : String) (k : Keyword) :
    ((∀ k', d.meaning known word = some k' → k' = k) ∧
        d.note known (word, k) = { d with words := d.words.put word k }) ∨
      ((¬ ∀ k', d.meaning known word = some k' → k' = k) ∧
        (d.note known (word, k)).conflicts ≠ []) := by
  unfold Draft.note
  cases d.meaning known word with
  | none => exact .inl ⟨by simp, rfl⟩
  | some existing =>
    by_cases hsame : existing = k
    · exact .inl ⟨by simp [hsame], by simp [hsame]⟩
    · exact .inr ⟨by simp [hsame], by simp [hsame]⟩

/-- One more assignment is admitted if the word stands for nothing else so far. -/
theorem admits_concat_iff (h : known.Admits (GivenBy entries)) :
    known.Admits (GivenBy (entries ++ [(word, k)])) ↔
      ∀ k', Draft.meaning known ⟨.ofEntries entries, []⟩ word = some k' → k' = k := by
  rw [Table.Admits.concat_iff, and_iff_right h]
  unfold Draft.meaning
  have hfind : ∀ k', Table.find? word (.ofEntries entries) = some k' ↔ (word, k') ∈ entries :=
    fun k' => h.find?_ofEntries
  -- what the entries give stands in front of what is known
  cases hw : Table.find? word (.ofEntries entries) with
  | none =>
    rw [Option.orElse_none]
    have hnone : ∀ k', (word, k') ∉ entries := fun k' hmem => by simp [← hfind, hw] at hmem
    exact and_iff_left fun k' hmem => absurd hmem (hnone k')
  | some u =>
    rw [Option.orElse_some]
    have hu : (word, u) ∈ entries := (hfind u).mp hw
    constructor
    · rintro ⟨-, hsame⟩ k' hk'
      cases hk'
      exact hsame u hu
    · intro hk
      obtain rfl := hk u rfl
      exact ⟨fun w hw => h.known hu hw, fun w hw => h.unique hu hw⟩

/-- **Assignments are noted without a conflict** exactly if the words in force admit them. -/
theorem noted (known : Table String Keyword) (entries : List (String × Keyword)) :
    (known.Admits (GivenBy entries) ∧
        entries.foldl (Draft.note known) {} = ⟨.ofEntries entries, []⟩) ∨
      (¬ known.Admits (GivenBy entries) ∧
        (entries.foldl (Draft.note known) {}).conflicts ≠ []) := by
  induction entries using List.reverseRecOn with
  | nil => exact .inl ⟨.nil known, rfl⟩
  | append_singleton entries entry ih =>
    obtain ⟨word, k⟩ := entry
    rw [List.foldl_append, List.foldl_cons, List.foldl_nil]
    rcases ih with ⟨hadmits, hd⟩ | ⟨hnot, hd⟩
    · rw [hd, admits_concat_iff hadmits]
      rcases note_cases known ⟨.ofEntries entries, []⟩ word k with ⟨hsame, hput⟩ | hconflict
      · rw [hput, Table.ofEntries, Table.ofEntries, Table.putAll_concat]
        exact .inl ⟨hsame, rfl⟩
      · exact .inr hconflict
    · -- a conflict stays, whatever is noted behind it
      refine .inr ⟨fun h => hnot (Table.Admits.concat_iff.mp h).1, ?_⟩
      rcases note_cases known (entries.foldl (Draft.note known) {}) word k with
        ⟨-, hput⟩ | ⟨-, hconflict⟩
      · rw [hput]
        exact hd
      · exact hconflict

end

/-- **A configuration is taken over** exactly if the words in force admit what it assigns. -/
theorem configure_eq_ok_iff {a a' : Aliases} {config : Config} :
    a.configure config = .ok a' ↔
      ∃ entries, assignments config = .ok entries ∧ a.words.Admits (GivenBy entries) ∧
        a' = ⟨a.words.putAll (Table.ofEntries entries),
          a.configured.putAll (Table.ofEntries entries)⟩ := by
  unfold configure
  rw [draft_eq]
  cases assignments config with
  | error e => simp [Except.map, bind, Except.bind]
  | ok entries =>
    simp only [Except.map, bind, Except.bind]
    rcases noted a.words entries with ⟨hadmits, hd⟩ | ⟨hnot, hd⟩
    · simp [hd, hadmits, pure, Except.pure, eq_comm]
    · rw [if_neg (by simpa using hd)]
      simp [hnot]

/-- **Every conflict is found**: a configuration is taken over exactly if it can be read and the
words in force admit what it gives. -/
theorem exists_configure_iff {a : Aliases} {config : Config} :
    (∃ a', a.configure config = .ok a') ↔ config.Legible ∧ a.words.Admits config.Gives := by
  simp only [configure_eq_ok_iff]
  constructor
  · rintro ⟨_, entries, hread, hadmits, -⟩
    exact ⟨exists_assignments.mp ⟨entries, hread⟩, hadmits.mono (mem_assignments hread).mpr⟩
  · rintro ⟨hlegible, hadmits⟩
    obtain ⟨entries, hread⟩ := exists_assignments.mpr hlegible
    exact ⟨_, entries, hread, hadmits.mono (mem_assignments hread).mp, rfl⟩

/-- **What words stand for** after a configuration: what they stood for, or what it gives them. -/
theorem find?_configure_iff {a a' : Aliases} {config : Config} (h : a.configure config = .ok a')
    {word : String} {k : Keyword} :
    Table.find? word a'.words = some k ↔
      Table.find? word a.words = some k ∨ config.Gives word k := by
  obtain ⟨entries, hread, hadmits, rfl⟩ := configure_eq_ok_iff.mp h
  rw [← mem_assignments hread, ← hadmits.mem_ofEntries]
  exact hadmits.ofEntries.find?_putAll

end Aliases

end BlockLang
