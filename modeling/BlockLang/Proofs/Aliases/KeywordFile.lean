import BlockLang.Proofs.Aliases.Runs

/-!
# What a keyword file assigns

A member of a keyword file is a list of aliases and the name of a keyword. The members are made into
a table under their lists of aliases before anything is checked, so of several members with the same
list only the name that comes last is looked at. Every conflict between the entries that are left,
or between them and the words in force, is found. A conflict between members with the same list is
not, and neither is a name that is replaced.
-/

namespace BlockLang

namespace Aliases

open BlockLang.Text

/-! ## Entries -/

/-- An entry of a keyword file: a list of aliases, and what stands for the name of a keyword. -/
abbrev Entry := List LooseText × Json

/-- The entries of a keyword file, one for every member of its object. -/
def entriesOf (members : List (LooseText × Json)) : List Entry :=
  members.map fun m => (splitAliases m.1, m.2)

/-- The entries that are left when the last one for a list of aliases replaces the others. -/
def lastEntries (members : List (LooseText × Json)) : List Entry :=
  Table.ofEntries (entriesOf members)

/-- The entries give a word a keyword. -/
def Given (entries : List Entry) (word : String) (k : Keyword) : Prop :=
  ∃ entry ∈ entries, .ofString word ∈ entry.1 ∧ entry.2 = .text (.ofString k.name)

/-- **Coherent entries**, where some words are known: every name is one of a keyword, every alias is
an identifier, and no word gets two keywords, from the entries or from what is known. -/
structure Coherent (known : Table String Keyword) (entries : List Entry) : Prop
    extends known.Admits (Given entries) where
  keyword : ∀ entry ∈ entries, ∃ k : Keyword, entry.2 = .text (.ofString k.name)
  identifier : ∀ entry ∈ entries, ∀ given ∈ entry.1,
    ∃ word : String, given = .ofString word ∧ isIdentifier word.toList = true

/-- The words of `a'` stand for what those of `a` stand for, and for what the entries give them. -/
def Gains (a : Aliases) (entries : List Entry) (a' : Aliases) : Prop :=
  ∀ word k, Table.find? word a'.words = some k ↔
    Table.find? word a.words = some k ∨ Given entries word k

/-! ## The configuration in a keyword file -/

theorem sameItems_texts (xs ys : List LooseText) :
    Json.sameItems (xs.map .text) (ys.map .text) = (xs == ys) := by
  induction xs generalizing ys with
  | nil => cases ys <;> simp [Json.sameItems]
  | cons x xs ih =>
    cases ys with
    | nil => simp [Json.sameItems]
    | cons y ys => simp [Json.sameItems, Json.same, ih]

/-- Lists of aliases are the same key only if they are equal. -/
theorem beq_texts (xs ys : List LooseText) :
    (Json.array (xs.map .text) == Json.array (ys.map .text)) = (xs == ys) :=
  sameItems_texts xs ys

theorem aliasesOfAll_texts (xs : List LooseText) : aliasesOfAll (xs.map .text) = .ok xs := by
  induction xs with
  | nil => rfl
  | cons x xs ih =>
    rw [List.map_cons, aliasesOfAll, ih]
    rfl

/-- **The configuration in a keyword file** has an entry for every list of aliases. -/
theorem ofMembers_eq (members : List (LooseText × Json)) :
    Config.ofMembers members =
      (lastEntries members).map fun entry => (.array (entry.1.map .text), entry.2) := by
  rw [lastEntries, ← Table.ofEntries_rename beq_texts, entriesOf, List.map_map]
  rfl

/-- It gives what the entries give, if that is an identifier. -/
theorem gives_ofMembers {members : List (LooseText × Json)} {word : String} {k : Keyword} :
    (Config.ofMembers members).Gives word k ↔
      Given (lastEntries members) word k ∧ isIdentifier word.toList = true := by
  rw [ofMembers_eq]
  constructor
  · rintro ⟨_, hmem, hk, aliases, haliases, given, hgiven, hword⟩
    obtain ⟨entry, hentry, rfl⟩ := List.mem_map.mp hmem
    rw [aliasesOf, aliasesOfAll_texts, Except.ok.injEq] at haliases
    obtain ⟨rfl, hidentifier⟩ := wordOf_eq_ok.mp hword
    exact ⟨⟨entry, hentry, haliases ▸ hgiven, keywordOf_eq_ok.mp hk⟩, hidentifier⟩
  · rintro ⟨⟨entry, hentry, hgiven, hk⟩, hidentifier⟩
    refine ⟨_, List.mem_map.mpr ⟨entry, hentry, rfl⟩, keywordOf_eq_ok.mpr hk, entry.1, ?_,
      .ofString word, hgiven, wordOf_eq_ok.mpr ⟨rfl, hidentifier⟩⟩
    rw [aliasesOf, aliasesOfAll_texts]

/-- An entry of a keyword file can be read: its name is one of a keyword, and its aliases are
identifiers. -/
def Entry.Legible (entry : Entry) : Prop :=
  (∃ k : Keyword, entry.2 = .text (.ofString k.name)) ∧ ∀ given ∈ entry.1,
    ∃ word : String, given = .ofString word ∧ isIdentifier word.toList = true

theorem legible_entries {entries : List Entry} :
    Config.Legible (entries.map fun entry => (.array (entry.1.map .text), entry.2)) ↔
      ∀ entry ∈ entries, Entry.Legible entry := by
  rw [Config.Legible, List.forall_mem_map]
  simp only [Entry.Legible, keywordOf_eq_ok, wordOf_eq_ok, aliasesOf, aliasesOfAll_texts,
    Except.ok.injEq, exists_eq_left']

/-- It can be read if the entries hold names of keywords and identifiers. -/
theorem legible_ofMembers {members : List (LooseText × Json)} :
    (Config.ofMembers members).Legible ↔ ∀ entry ∈ lastEntries members, Entry.Legible entry := by
  rw [ofMembers_eq, legible_entries]

section

variable {members : List (LooseText × Json)}

/-- Once it can be read, it gives just what the entries give. -/
theorem given_iff (h : (Config.ofMembers members).Legible) {word : String} {k : Keyword} :
    Given (lastEntries members) word k ↔ (Config.ofMembers members).Gives word k := by
  rw [gives_ofMembers, iff_self_and]
  rintro ⟨entry, hentry, hgiven, -⟩
  obtain ⟨w, hw, hidentifier⟩ := (legible_ofMembers.mp h entry hentry).2 _ hgiven
  rwa [LooseText.ofString_inj hw]

/-- **Coherent entries** are those of a configuration that can be read and is admitted. -/
theorem coherent_iff {known : Table String Keyword} :
    Coherent known (lastEntries members) ↔
      (Config.ofMembers members).Legible ∧ known.Admits (Config.ofMembers members).Gives := by
  constructor
  · intro h
    have hlegible : (Config.ofMembers members).Legible :=
      legible_ofMembers.mpr fun entry hentry => ⟨h.keyword entry hentry, h.identifier entry hentry⟩
    exact ⟨hlegible, h.toAdmits.mono (given_iff hlegible).mpr⟩
  · rintro ⟨hlegible, hadmits⟩
    have hread := legible_ofMembers.mp hlegible
    exact ⟨hadmits.mono (given_iff hlegible).mp, fun entry hentry => (hread entry hentry).1,
      fun entry hentry => (hread entry hentry).2⟩

/-- What is left are entries of the file. -/
theorem mem_entriesOf {entry : Entry} (h : entry ∈ lastEntries members) :
    entry ∈ entriesOf members :=
  Table.mem_of_mem_ofEntries h

/-- For every list of aliases an entry is left. -/
theorem exists_lastEntry {entry : Entry} (h : entry ∈ entriesOf members) :
    ∃ name, (entry.1, name) ∈ lastEntries members := by
  obtain ⟨name, hname⟩ := Table.exists_find?_putAll h
  exact ⟨name, Table.mem_of_find? hname⟩

/-! ## Replaced entries -/

/-- **Nothing that matters is replaced**: every name is one of a keyword, and every entry that has
aliases is left. -/
def Kept (members : List (LooseText × Json)) : Prop :=
  ∀ entry ∈ entriesOf members, (∃ k : Keyword, entry.2 = .text (.ofString k.name)) ∧
    (entry.1 = [] ∨ entry ∈ lastEntries members)

/-- The entries that are left then give all there is. -/
theorem Kept.given_iff (h : Kept members) {word : String} {k : Keyword} :
    Given (entriesOf members) word k ↔ Given (lastEntries members) word k := by
  constructor
  · rintro ⟨entry, hentry, hgiven, hk⟩
    rcases (h entry hentry).2 with hnil | hlast
    · rw [hnil] at hgiven
      cases hgiven
    · exact ⟨entry, hlast, hgiven, hk⟩
  · rintro ⟨entry, hentry, hgiven⟩
    exact ⟨entry, mem_entriesOf hentry, hgiven⟩

theorem Kept.coherent {known : Table String Keyword} (h : Kept members)
    (hlast : Coherent known (lastEntries members)) : Coherent known (entriesOf members) where
  toAdmits := hlast.toAdmits.mono h.given_iff.mp
  keyword entry hentry := (h entry hentry).1
  identifier entry hentry given hgiven := by
    rcases (h entry hentry).2 with hnil | hkept
    · rw [hnil] at hgiven
      cases hgiven
    · exact hlast.identifier entry hkept given hgiven

/-- Entries that are coherent all together are kept: another name for the same aliases would be a
conflict. -/
theorem kept_of_coherent {known : Table String Keyword} (h : Coherent known (entriesOf members)) :
    Kept members := by
  rintro ⟨aliases, name⟩ hentry
  obtain ⟨k, rfl⟩ := h.keyword _ hentry
  refine ⟨⟨k, rfl⟩, ?_⟩
  obtain ⟨name', hlast⟩ := exists_lastEntry hentry
  obtain ⟨k', rfl⟩ := h.keyword _ (mem_entriesOf hlast)
  cases aliases with
  | nil => exact .inl rfl
  | cons given aliases =>
    obtain ⟨word, rfl, -⟩ := h.identifier _ hentry given List.mem_cons_self
    have hk : Given (entriesOf members) word k := ⟨_, hentry, List.mem_cons_self, rfl⟩
    have hk' : Given (entriesOf members) word k' :=
      ⟨_, mem_entriesOf hlast, List.mem_cons_self, rfl⟩
    rw [h.unique hk' hk]
    exact .inr hlast

end

/-! ## Loading -/

section

variable {a a' : Aliases} {content : Option ByteArray} {members : List (LooseText × Json)}

theorem load_eq (hread : fileMembers content = .ok members) :
    a.load content = a.configure (.ofMembers members) := by
  rw [load, hread]
  rfl

/-- The words that a keyword file adds are those that are left of it. -/
theorem gains_load (hread : fileMembers content = .ok members) (h : a.load content = .ok a') :
    a.Gains (lastEntries members) a' := by
  rw [load_eq hread] at h
  intro word k
  rw [find?_configure_iff h, given_iff (exists_configure_iff.mp ⟨a', h⟩).1]

end

/-- **What a keyword file comes to.** It is taken over exactly if the entries that are left of it
are coherent, and then the words in force get these entries and nothing else. All entries of the
file are coherent, and given to the words in force, exactly if nothing that matters was replaced. -/
theorem load_iff_coherent (a : Aliases) (content : Option ByteArray)
    (members : List (LooseText × Json)) (hread : fileMembers content = .ok members) :
    ((∃ a', a.load content = .ok a') ↔ Coherent a.words (lastEntries members)) ∧
      ∀ a', a.load content = .ok a' →
        a.Extends a' ∧ a.Gains (lastEntries members) a' ∧
          (Coherent a.words (entriesOf members) ∧ a.Gains (entriesOf members) a' ↔
            Kept members) := by
  have hiff : (∃ a', a.load content = .ok a') ↔ Coherent a.words (lastEntries members) := by
    rw [load_eq hread, exists_configure_iff, coherent_iff]
  refine ⟨hiff, fun a' h => ?_⟩
  have hgains := gains_load hread h
  refine ⟨extends_configure ((load_eq hread).symm.trans h), hgains, ?_, fun hkept => ⟨?_, ?_⟩⟩
  · rintro ⟨hcoherent, -⟩
    exact kept_of_coherent hcoherent
  · exact hkept.coherent (hiff.mp ⟨a', h⟩)
  · intro word k
    rw [hgains word k, hkept.given_iff]

/-- Two members with texts, as they are read. -/
theorem fileMembers_eq_pair {content : Option ByteArray} {k v k' v' : LooseText}
    (h : (match fileMembers content with
      | .ok [(l, .text w), (l', .text w')] => decide ((l, w, l', w') = (k, v, k', v'))
      | _ => false) = true) :
    fileMembers content = .ok [(k, .text v), (k', .text v')] := by
  split at h
  · next l w l' w' heq =>
    cases of_decide_eq_true h
    exact heq
  · cases h

/-- A keyword file with two aliases for one keyword and one for another. -/
def twoKeywords : ByteArray := "\x7b\"donnee, record\": \"DATA\", \"faire\": \"DO\"\x7d".toUTF8

/-- Nothing of it is replaced, so all of it is given. -/
theorem load_iff_coherent_twoKeywords :
    ∃ members a', fileMembers (some twoKeywords) = .ok members ∧
      load {} (some twoKeywords) = .ok a' ∧ a'.words.map (·.1) = ["donnee", "record", "faire"] ∧
      Coherent [] (entriesOf members) ∧ Gains {} (entriesOf members) a' := by
  have hread : fileMembers (some twoKeywords) =
      .ok [(.ofString "donnee, record", .text (.ofString "DATA")),
        (.ofString "faire", .text (.ofString "DO"))] :=
    fileMembers_eq_pair (by decide +kernel)
  have hload : load {} (some twoKeywords) =
      .ok ⟨[("donnee", .data), ("record", .data), ("faire", .doWord)],
        [("donnee", .data), ("record", .data), ("faire", .doWord)]⟩ :=
    toOption_eq_some.mp (by decide +kernel)
  obtain ⟨-, hafter⟩ := load_iff_coherent {} _ _ hread
  obtain ⟨-, -, hall⟩ := hafter _ hload
  -- the lists of aliases differ, so the entries that are left are all entries
  refine ⟨_, _, hread, hload, rfl, hall.mpr fun entry hentry => ⟨?_, .inr hentry⟩⟩
  rcases List.mem_cons.mp hentry with rfl | hentry
  · exact ⟨.data, rfl⟩
  · obtain rfl := List.mem_singleton.mp hentry
    exact ⟨.doWord, rfl⟩

/-- A keyword file with two keys that differ in a blank, for two keywords. -/
def spacedKeys : ByteArray := "\x7b\"a\": \"DATA\", \" a\": \"DO\"\x7d".toUTF8

/-- It gives an alias two keywords, and is taken over. -/
theorem load_spacedKeys :
    ∃ members a', fileMembers (some spacedKeys) = .ok members ∧
      load {} (some spacedKeys) = .ok a' ∧
      Given (entriesOf members) "a" .data ∧ Given (entriesOf members) "a" .doWord := by
  have hread : fileMembers (some spacedKeys) =
      .ok [(.ofString "a", .text (.ofString "DATA")), (.ofString " a", .text (.ofString "DO"))] :=
    fileMembers_eq_pair (by decide +kernel)
  have hload : load {} (some spacedKeys) = .ok ⟨[("a", .doWord)], [("a", .doWord)]⟩ :=
    toOption_eq_some.mp (by decide +kernel)
  have hblank : splitAliases (.ofString " a") = [.ofString "a"] := by decide
  have hplain : splitAliases (.ofString "a") = [.ofString "a"] := by decide
  refine ⟨_, _, hread, hload, ?_, ?_⟩
  · exact ⟨_, List.mem_cons_self, by simp [hplain], rfl⟩
  · exact ⟨_, List.mem_cons_of_mem _ List.mem_cons_self, by simp [hblank], rfl⟩

end Aliases

end BlockLang
