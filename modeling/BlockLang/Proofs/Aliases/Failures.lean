import BlockLang.Proofs.Aliases.KeywordFile

/-!
# How configurations fail

What is wrong with a keyword file is reported as an error of the configuration, with three
exceptions: bytes that are no text, an integer that is too long, and a list or an object where the
name of a keyword is due. The last one is noticed at the entry that holds it, so an entry in front
of it that cannot be read hides it, while a conflict in front of it does not. None of the three
depends on the words in force.
-/

namespace BlockLang

/-- A list or an object. -/
def Json.IsCompound : Json → Prop
  | .array _ => True
  | .object _ => True
  | _ => False

namespace Aliases

open BlockLang.Text

/-! ## Entries of any configuration -/

/-- The name of a keyword is looked up in vain, or it is a list or an object. -/
theorem keywordOf_error_cases {name : Json} {e : ConfigError} (h : keywordOf name = .error e) :
    (name.IsCompound ∧ e.category = .type) ∨ (¬ name.IsCompound ∧ e.category = .configuration) := by
  cases name with
  | array =>
    cases h
    exact .inl ⟨trivial, rfl⟩
  | object =>
    cases h
    exact .inl ⟨trivial, rfl⟩
  | text s =>
    rw [keywordOf] at h
    cases hk : s.toString?.bind Keyword.ofName? with
    | some k => simp [hk] at h
    | none =>
      simp only [hk, Except.error.injEq] at h
      subst h
      exact .inr ⟨id, rfl⟩
  | _ =>
    cases h
    exact .inr ⟨id, rfl⟩

/-- A list or an object is no name. -/
theorem keywordOf_of_isCompound {name : Json} (h : name.IsCompound) :
    ∃ e, keywordOf name = .error e ∧ e.category ≠ .configuration := by
  cases name with
  | array => exact ⟨_, rfl, nofun⟩
  | object => exact ⟨_, rfl, nofun⟩
  | _ => exact absurd h id

mutual

/-- What is no alias and no group of aliases is an error of the configuration. -/
theorem aliasesOf_error_category :
    ∀ {entry : Json} {e : ConfigError}, aliasesOf entry = .error e → e.category = .configuration
  | .array items, e, h => aliasesOfAll_error_category h
  | .text _, _, h => by cases h
  | .null, _, h | .bool _, _, h | .int _, _, h | .real _, _, h | .object _, _, h => by
    cases h
    rfl

theorem aliasesOfAll_error_category : ∀ {entries : List Json} {e : ConfigError},
    aliasesOfAll entries = .error e → e.category = .configuration
  | [], _, h => by cases h
  | entry :: entries, e, h => by
    rcases except_bind_eq_error.mp h with h | ⟨first, -, h⟩
    · exact aliasesOf_error_category h
    · rcases except_bind_eq_error.mp h with h | ⟨others, -, h⟩
      · exact aliasesOfAll_error_category h
      · cases h

end

/-- An alias that is no identifier is an error of the configuration. -/
theorem mapM_wordOf_error_category {aliases : List LooseText} {e : ConfigError}
    (h : aliases.mapM wordOf = .error e) : e.category = .configuration := by
  obtain ⟨_, given, _, -, -, h⟩ := mapM_eq_error.mp h
  unfold wordOf at h
  split at h
  · cases h
  · cases h
    rfl

/-- **An entry fails otherwise** than as a configuration if its name is a list or an object. -/
theorem assignmentsOf_error_iff {entry : Json × Json} :
    (∃ e, assignmentsOf entry = .error e ∧ e.category ≠ .configuration) ↔ entry.2.IsCompound := by
  constructor
  · rintro ⟨e, h, hcategory⟩
    rcases except_bind_eq_error.mp h with h | ⟨k, -, h⟩
    · rcases keywordOf_error_cases h with ⟨hcompound, -⟩ | ⟨-, hconfiguration⟩
      · exact hcompound
      · exact absurd hconfiguration hcategory
    · rcases except_bind_eq_error.mp h with h | ⟨aliases, -, h⟩
      · exact absurd (aliasesOf_error_category h) hcategory
      · rcases except_bind_eq_error.mp h with h | ⟨words, -, h⟩
        · exact absurd (mapM_wordOf_error_category h) hcategory
        · cases h
  · intro hcompound
    obtain ⟨e, h, hcategory⟩ := keywordOf_of_isCompound hcompound
    exact ⟨e, except_bind_eq_error.mpr (.inl h), hcategory⟩

/-! ## Whole configurations -/

/-- What cannot be read is not taken over, whatever words are in force. -/
theorem configure_of_assignments_error {config : Config} {e : ConfigError}
    (h : assignments config = .error e) (a : Aliases) : a.configure config = .error e := by
  rw [configure, draft_eq, h]
  rfl

/-- Assignments cannot be read off if those of an entry cannot. -/
theorem assignments_eq_error_iff {config : Config} {e : ConfigError} :
    assignments config = .error e ↔ config.mapM assignmentsOf = .error e := by
  simp [assignments, except_bind_eq_error, pure, Except.pure]

/-- A configuration can be read if every entry can. -/
theorem legible_iff {config : Config} :
    config.Legible ↔ ∀ entry ∈ config, ∃ entries, assignmentsOf entry = .ok entries :=
  forall₂_congr fun _ _ => exists_assignmentsOf.symm

/-- **A name that is none of a keyword** is reported, if the entries in front of it can be read. -/
theorem configure_of_unknownName {before : Config} (hbefore : before.Legible) {name : LooseText}
    (hname : name.toString?.bind Keyword.ofName? = none) (aliases : Json) (behind : Config)
    (a : Aliases) :
    a.configure (before ++ (aliases, .text name) :: behind) = .error (.unknownName name) := by
  have hkeyword : keywordOf (.text name) = .error (.unknownName name) := by rw [keywordOf, hname]
  have hentry : assignmentsOf (aliases, .text name) = .error (.unknownName name) :=
    except_bind_eq_error.mpr (.inl hkeyword)
  exact configure_of_assignments_error (assignments_eq_error_iff.mpr (mapM_eq_error.mpr
    ⟨before, _, behind, rfl, legible_iff.mp hbefore, hentry⟩)) a

/-- Conflicts apart, a configuration fails as its assignments do. -/
theorem configure_eq_error_iff {a : Aliases} {config : Config} {e : ConfigError}
    (he : e.category ≠ .configuration) :
    a.configure config = .error e ↔ config.mapM assignmentsOf = .error e := by
  rw [← assignments_eq_error_iff]
  refine ⟨fun h => ?_, fun h => configure_of_assignments_error h a⟩
  cases hread : assignments config with
  | error f =>
    rw [configure_of_assignments_error hread a, Except.error.injEq] at h
    rw [h]
  | ok entries =>
    -- what was read may only be in conflict
    rw [configure, draft_eq, hread] at h
    rcases except_bind_eq_error.mp h with h | ⟨d, -, h⟩
    · cases h
    · split at h
      · cases h
      · cases h
        exact absurd rfl he

/-- **A configuration fails otherwise** than as a configuration if behind entries that can be read
comes one whose name is a list or an object. -/
theorem configure_error_iff {a : Aliases} {config : Config} :
    (∃ e, a.configure config = .error e ∧ e.category ≠ .configuration) ↔
      ∃ before entry behind, config = before ++ entry :: behind ∧ Config.Legible before ∧
        entry.2.IsCompound := by
  constructor
  · rintro ⟨e, h, he⟩
    obtain ⟨before, entry, behind, rfl, hbefore, h⟩ :=
      mapM_eq_error.mp ((configure_eq_error_iff he).mp h)
    exact ⟨before, entry, behind, rfl, legible_iff.mpr hbefore,
      assignmentsOf_error_iff.mp ⟨e, h, he⟩⟩
  · rintro ⟨before, entry, behind, rfl, hbefore, hcompound⟩
    obtain ⟨e, h, he⟩ := assignmentsOf_error_iff.mpr hcompound
    exact ⟨e, (configure_eq_error_iff he).mpr
      (mapM_eq_error.mpr ⟨before, entry, behind, rfl, legible_iff.mp hbefore, h⟩), he⟩

/-! ## Keyword files -/

/-- **Files that fail otherwise** than as a configuration. -/
inductive Unforeseen : Option ByteArray → Prop
  /-- The bytes are no text. -/
  | undecodable {bytes} : String.fromUTF8? bytes = none → Unforeseen (some bytes)
  /-- The text is one of JSON up to an integer that is too long. -/
  | longInteger {bytes text digits} : String.fromUTF8? bytes = some text →
      Json.read text.toList = .error (.longInteger digits) → Unforeseen (some bytes)
  /-- Behind entries that can be read comes one whose name is a list or an object. -/
  | compoundName {content members before entry behind} : fileMembers content = .ok members →
      lastEntries members = before ++ entry :: behind → (∀ e ∈ before, Entry.Legible e) →
      entry.2.IsCompound → Unforeseen content

/-- The configuration in a file fails otherwise if one of the entries that are left does. -/
theorem configure_ofMembers_error_iff {a : Aliases} {members : List (LooseText × Json)} :
    (∃ e, a.configure (.ofMembers members) = .error e ∧ e.category ≠ .configuration) ↔
      ∃ before entry behind, lastEntries members = before ++ entry :: behind ∧
        (∀ e ∈ before, Entry.Legible e) ∧ entry.2.IsCompound := by
  rw [configure_error_iff, ofMembers_eq]
  constructor
  · rintro ⟨before, entry, behind, heq, hbefore, hcompound⟩
    obtain ⟨before, rest, hsplit, rfl, hrest⟩ := List.map_eq_append_iff.mp heq
    obtain ⟨entry, behind, rfl, rfl, -⟩ := List.map_eq_cons_iff.mp hrest
    exact ⟨before, entry, behind, hsplit, legible_entries.mp hbefore, hcompound⟩
  · rintro ⟨before, entry, behind, hsplit, hbefore, hcompound⟩
    rw [hsplit, List.map_append, List.map_cons]
    exact ⟨_, _, _, rfl, legible_entries.mpr hbefore, hcompound⟩

/-- What keeps a file from being an object of members. -/
theorem fileMembers_error_iff {content : Option ByteArray} :
    (∃ e, fileMembers content = .error e ∧ e.category ≠ .configuration) ↔
      ∃ bytes, content = some bytes ∧ (String.fromUTF8? bytes = none ∨
        ∃ text digits, String.fromUTF8? bytes = some text ∧
          Json.read text.toList = .error (.longInteger digits)) := by
  cases content with
  | none => simp [fileMembers, ConfigError.category]
  | some bytes =>
    simp only [Option.some.injEq, exists_eq_left']
    cases htext : String.fromUTF8? bytes with
    | none => simp [fileMembers, htext, ConfigError.category]
    | some text =>
      cases hread : Json.read text.toList with
      | error e => cases e <;> simp [fileMembers, htext, hread, ConfigError.category]
      | ok value => cases value <;> simp [fileMembers, htext, hread, ConfigError.category]

/-- **Loading a file fails otherwise** than as a configuration for these files, whatever words are
in force. -/
theorem load_error_iff {a : Aliases} {content : Option ByteArray} :
    (∃ e, a.load content = .error e ∧ e.category ≠ .configuration) ↔ Unforeseen content := by
  simp only [load, except_bind_eq_error]
  constructor
  · rintro ⟨e, h | ⟨members, hmembers, h⟩, he⟩
    · obtain ⟨bytes, rfl, hno | ⟨text, digits, htext, hread⟩⟩ := fileMembers_error_iff.mp ⟨e, h, he⟩
      · exact .undecodable hno
      · exact .longInteger htext hread
    · obtain ⟨before, entry, behind, hsplit, hbefore, hcompound⟩ :=
        configure_ofMembers_error_iff.mp ⟨e, h, he⟩
      exact .compoundName hmembers hsplit hbefore hcompound
  · intro h
    cases h with
    | undecodable hno =>
      obtain ⟨e, h, he⟩ := fileMembers_error_iff.mpr ⟨_, rfl, .inl hno⟩
      exact ⟨e, .inl h, he⟩
    | longInteger htext hread =>
      obtain ⟨e, h, he⟩ := fileMembers_error_iff.mpr ⟨_, rfl, .inr ⟨_, _, htext, hread⟩⟩
      exact ⟨e, .inl h, he⟩
    | compoundName hmembers hsplit hbefore hcompound =>
      obtain ⟨e, h, he⟩ :=
        configure_ofMembers_error_iff.mpr ⟨_, _, _, hsplit, hbefore, hcompound⟩
      exact ⟨e, .inr ⟨_, hmembers, h⟩, he⟩

end Aliases

end BlockLang
