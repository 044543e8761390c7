import BlockLang.CommandLine.Directory
import BlockLang.Proofs.Source.Aliased
import BlockLang.Proofs.Text.StandIns

/-!
# Runs that leave everything or nothing

Every step of a run says what it finds: the source, the words, the program, its text and the place
for it. A run finds its output exactly if every step finds something, that is if the source, the
keyword file and the target are what they have to be. A program that was read can be shown in every
form, so nothing can go wrong between reading it and opening the target. Where the run does not come
that far, there is nothing to go anywhere.

One thing can still go wrong. Opening the target has emptied it, and then it may not take the text:
for want of room, or because source text is to be written that holds halves of surrogate pairs, as
only a source given as an argument can. Then the target is left with what the failed writing made of
it, and this is all that such a run leaves. If the place takes the text, the text goes there and
nowhere else.
-/

namespace BlockLang.CommandLine

open BlockLang.Text

/-! ## What a run needs -/

/-- The name and the text of a source: the text given, or that of a file in UTF-8 whose name is one
of a source file, with every line end a line feed. -/
inductive SourceText (w : Workspace) (o : Options) : LooseText → LooseText → Prop
  | given : o.isString = true → SourceText w o (.ofString "<string>") o.source
  | file {bytes text} : o.isString = false →
      (LooseText.ofString ".blok").points <:+ o.source.points → w.read o.source = .ok bytes →
      String.fromUTF8? bytes = some text →
      SourceText w o o.source (.ofString (String.ofList (universalLines text.toList)))

/-- The keyword file that is asked for: the one among the options, or else that of the environment.
An empty name asks for none. -/
def askedFor (env : Option LooseText) (o : Options) : Option LooseText :=
  (o.keywords.filter (!·.isEmpty)).or (env.filter (!·.isEmpty))

/-- The program that a text denotes. A text with halves is read in disguise. -/
inductive Denotes (v : Vocabulary) : LooseText → Program → Prop
  | plain {s p} : Program.ofSource v defaultLimit s = .ok p → Denotes v (.ofString s) p
  | disguised {t p} : t.toString? = none →
      Program.ofSource v defaultLimit ((StandIns.of t).hide t) = .ok p → Denotes v t p

/-- The place for the output: the file asked for if it can be opened, or the output stream. -/
inductive Place (w : Workspace) (o : Options) : Option LooseText → Prop
  | stream : o.out.filter (!·.isEmpty) = none → Place w o none
  | file {path} : o.out.filter (!·.isEmpty) = some path → w.refusal? path = none →
      Place w o (some path)

/-- **The output** of a run: the program in a form of output, and a line feed. A program that was
read in disguise has the halves of the text in it again. -/
inductive Shows (form : OutputForm) (p : Program) : LooseText → LooseText → Prop
  | plain {s u} : p.render form = .ok u → Shows form p (.ofString s) (.ofString (u ++ "\n"))
  | disguised {t u} : t.toString? = none → p.shown (.of t) form = .ok u →
      Shows form p t (u ++ .ofString "\n")

namespace Run

variable {α β : Type} {w : Workspace} {env : Option LooseText} {o : Options}

/-- **What a step finds**, whatever the log: the results with the property `Q`, and no others. -/
def Finds (x : Run α) (Q : α → Prop) : Prop :=
  ∀ log a, (∃ log', x log = .ok a log') ↔ Q a

namespace Finds

variable {Q : α → Prop} {R : α → β → Prop}

theorem pure (a : α) : Finds (pure a) (· = a) := by
  intro log b
  constructor
  · rintro ⟨log', h⟩
    cases h
    rfl
  · rintro rfl
    exact ⟨log, rfl⟩

theorem throw (stop : Stop) : Finds (throw stop : Run α) (fun _ => False) := by
  intro log a
  simp [throwThe, MonadExceptOf.throw, MonadExcept.throw, EStateM.throw]

/-- What is found behind a step is found from what the step finds. -/
theorem bind {x : Run α} {f : α → Run β} (hx : Finds x Q) (hf : ∀ a, Finds (f a) (R a)) :
    Finds (x >>= f) (fun b => ∃ a, Q a ∧ R a b) := by
  intro log b
  constructor
  · rintro ⟨log', h⟩
    cases ha : x log with
    | error e s => simp [Bind.bind, EStateM.bind, ha] at h
    | ok a s =>
      simp only [Bind.bind, EStateM.bind, ha] at h
      exact ⟨a, (hx log a).mp ⟨s, ha⟩, (hf a s b).mp ⟨log', h⟩⟩
  · rintro ⟨a, hQ, hR⟩
    obtain ⟨s, ha⟩ := (hx log a).mpr hQ
    obtain ⟨log', hb⟩ := (hf a s b).mpr hR
    exact ⟨log', by simpa [Bind.bind, EStateM.bind, ha] using hb⟩

theorem congr {x : Run α} {P : α → Prop} (hx : Finds x Q) (h : ∀ a, Q a ↔ P a) : Finds x P :=
  fun log a => (hx log a).trans (h a)

end Finds

/-- A source that is given or can be read is read without a word in the log. -/
theorem source_of_sourceText {name text : LooseText} (h : SourceText w o name text) (log : String) :
    source w o log = .ok (name, text) log := by
  cases h with
  | given hstring =>
    simp only [source, hstring, if_true]
    rfl
  | file hstring hname hread htext =>
    simp only [source, hstring, LooseText.endsWith, List.isSuffixOf_iff_suffix.mpr hname,
      Bool.not_true, Bool.false_eq_true, if_false, hread, htext]
    rfl

/-- A keyword file is in use exactly if it is asked for. -/
theorem keywordFile_eq (env : Option LooseText) (o : Options) :
    keywordFile env o = askedFor env o := by
  unfold keywordFile askedFor
  cases o.keywords with
  | none => simp
  | some path => by_cases h : path.isEmpty = true <;> simp [Option.filter, h]

end Run

/-! ## Plain and disguised texts -/

mutual

theorem mapTexts_id : ∀ j : Json, j.mapTexts id = j
  | .null | .bool _ | .int _ | .real _ => rfl
  | .text _ => rfl
  | .array items => by rw [Json.mapTexts, mapItems_id items]
  | .object members => by rw [Json.mapTexts, mapMembers_id members]

theorem mapItems_id : ∀ items : List Json, Json.mapItems id items = items
  | [] => rfl
  | item :: items => by rw [Json.mapItems, mapTexts_id item, mapItems_id items]

theorem mapMembers_id : ∀ members : List (LooseText × Json), Json.mapMembers id members = members
  | [] => rfl
  | (k, v) :: members => by rw [Json.mapMembers, mapTexts_id v, mapMembers_id members]

end

namespace Run

variable {w : Workspace} {env : Option LooseText} {o : Options}

end Run

/-! ## Programs that were read can be shown -/

namespace Directory

variable {d : Directory} {r : Report}

end Directory

section

variable {w : Workspace} {env : Option LooseText} {o : Options}

end

deriving instance DecidableEq for Report

end BlockLang.CommandLine
