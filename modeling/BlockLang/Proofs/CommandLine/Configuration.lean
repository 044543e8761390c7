import BlockLang.Proofs.Aliases.Failures
import BlockLang.Proofs.CommandLine.AllOrNothing

/-!
# Runs with a wrong configuration

The keyword file is loaded once the source is there and before anything of it is read. A file that
is not taken over ends the run there: with status 1 and a complaint about the configuration, or with
a failure and no complaint if the file is one of those that fail otherwise.
-/

namespace BlockLang.CommandLine

open BlockLang.Text
open BlockLang.Aliases (Unforeseen)

/-- **What is found under the path of a keyword file**: the bytes of a file, or none if there is no
file that can be read. -/
inductive KeywordContent (w : Workspace) (path : LooseText) : Option ByteArray → Prop
  | file {bytes} : w.read path = .ok bytes → KeywordContent w path (some bytes)
  | missing {e} : w.read path = .error e → e.isOfSystem = true → KeywordContent w path none

section

variable {w : Workspace} {env : Option LooseText} {o : Options} {name text path : LooseText}
  {content : Option ByteArray} {e : ConfigError}

namespace Run

theorem keywordContent_eq (h : KeywordContent w path content) (log : String) :
    keywordContent w path log = .ok content log := by
  cases h with
  | file hread =>
    simp only [keywordContent, hread]
    rfl
  | missing hread hsystem =>
    simp only [keywordContent, hread, hsystem, if_true]
    rfl

/-- A keyword file that is not taken over stops the reading of the words. -/
theorem vocabulary_of_error (hpath : askedFor env o = some path) (h : KeywordContent w path content)
    (he : Aliases.ofFile content = .error e) (log : String) :
    vocabulary w env o log = .error (configStop e) log := by
  simp only [vocabulary, keywordFile_eq, hpath, bind, EStateM.bind, keywordContent_eq h, he]
  rfl

/-- And with it the whole run. -/
theorem whole_of_error (hsource : SourceText w o name text) (hpath : askedFor env o = some path)
    (h : KeywordContent w path content) (he : Aliases.ofFile content = .error e) (log : String) :
    whole w env o log = .error (configStop e) log := by
  simp only [whole, bind, EStateM.bind, source_of_sourceText hsource,
    vocabulary_of_error hpath h he]

end Run

/-- **A run whose keyword file is not taken over** leaves nothing but what its stop says. -/
theorem run_of_error (hsource : SourceText w o name text) (hpath : askedFor env o = some path)
    (h : KeywordContent w path content) (he : Aliases.ofFile content = .error e) :
    run w env o = ⟨(Run.configStop e).ending, "", (Run.configStop e).complaint, none⟩ := by
  simp only [run, Run.whole_of_error hsource hpath h he, ite_self, String.empty_append]

/-- An error of the configuration is told, and any other one is a failure. -/
theorem Run.configStop_cases (e : ConfigError) :
    (e.category = .configuration ∧ configStop e = .configuration e) ∨
      (e.category ≠ .configuration ∧ ∃ f, configStop e = .failure f) := by
  unfold configStop
  cases e.category with
  | configuration => exact .inl ⟨rfl, rfl⟩
  | type => exact .inr ⟨nofun, _, rfl⟩
  | number => exact .inr ⟨nofun, _, rfl⟩
  | decoding => exact .inr ⟨nofun, _, rfl⟩

end

/-- **What comes of a keyword file.** Loading it succeeds or fails as a configuration, whatever
words are in force, exactly if it is none of the files that fail otherwise. In a run with a source
that can be read, a file that does not load leads to status 1 and a complaint about the
configuration, or to a failure without a complaint if it is one of those. -/
theorem load_fails_as_configuration_iff (content : Option ByteArray) :
    (∀ a : Aliases, ((∃ a', a.load content = .ok a') ∨
        ∃ e, a.load content = .error e ∧ e.category = .configuration) ↔ ¬ Unforeseen content) ∧
      ∀ (parse : ArgumentParser) (w : Workspace) (env : Option LooseText) (argv : List LooseText)
        (o : Options) (name text path : LooseText) (e : ConfigError), parse argv = .ok o →
        SourceText w o name text → askedFor env o = some path → KeywordContent w path content →
        Aliases.ofFile content = .error e →
          (¬ Unforeseen content → runArguments parse w env argv =
            .ok ⟨.status 1, "", (Stop.configuration e).complaint, none⟩) ∧
          (Unforeseen content →
            ∃ f, runArguments parse w env argv = .ok ⟨.failure f, "", "", none⟩) := by
  refine ⟨fun a => ?_,
    fun parse w env argv o name text path e hargs hsource hpath hcontent he => ?_⟩
  · rw [← Aliases.load_error_iff (a := a)]
    constructor
    · rintro (⟨a', h⟩ | ⟨e, h, hcategory⟩) ⟨e', h', hother⟩
      · rw [h] at h'
        cases h'
      · rw [h] at h'
        cases h'
        exact hother hcategory
    · intro hno
      cases h : a.load content with
      | ok a' => exact .inl ⟨a', rfl⟩
      | error e => exact .inr ⟨e, rfl, by_contra fun hother => hno ⟨e, h, hother⟩⟩
  · have hrun : runArguments parse w env argv =
        .ok ⟨(Run.configStop e).ending, "", (Run.configStop e).complaint, none⟩ := by
      rw [runArguments, hargs, ← run_of_error hsource hpath hcontent he]
      rfl
    have hunforeseen : Unforeseen content ↔ e.category ≠ .configuration := by
      rw [← Aliases.load_error_iff (a := Aliases.canonical)]
      constructor
      · rintro ⟨e', h', hother⟩
        cases he.symm.trans h'
        exact hother
      · exact fun hother => ⟨e, he, hother⟩
    rw [hrun, hunforeseen]
    rcases Run.configStop_cases e with ⟨hcategory, hstop⟩ | ⟨hcategory, f, hstop⟩
    · rw [hstop]
      exact ⟨fun _ => rfl, fun hother => absurd hcategory hother⟩
    · rw [hstop]
      exact ⟨fun hno => absurd hcategory hno, fun _ => ⟨f, rfl⟩⟩

/-- A keyword file with a name that no keyword has. -/
def unknownKeyword : ByteArray := "\x7b\"donnee\": \"VAR\"\x7d".toUTF8

/-- The arguments to read a given source with a keyword file. -/
def givenArguments : List LooseText := ["-s", "do f \x7b \x7d", "-k", "k.json"].map .ofString

/-- The options that they give. -/
def givenSource : Options :=
  ⟨.ofString "do f \x7b \x7d", true, .outline, none, some (.ofString "k.json"), false⟩

/-- It is told to be wrong. -/
theorem load_fails_as_configuration_unknownKeyword :
    ¬ Unforeseen (some unknownKeyword) ∧
      runArguments Rules.newer.parse
          (Directory.workspace [(bytesOf "k.json", unknownKeyword)]) none givenArguments =
        .ok ⟨.status 1, "", "Keyword configuration error: Unknown keyword token name: VAR\n",
          none⟩ := by
  obtain ⟨hload, hrun⟩ := load_fails_as_configuration_iff (some unknownKeyword)
  have he : Aliases.ofFile (some unknownKeyword) = .error (.unknownName (.ofString "VAR")) := by
    decide +kernel
  have hforeseen : ¬ Unforeseen (some unknownKeyword) :=
    (hload .canonical).mp (.inr ⟨_, he, rfl⟩)
  have hargs : Rules.newer.parse givenArguments = .ok givenSource := by
    decide +kernel
  have hread : (Directory.workspace [(bytesOf "k.json", unknownKeyword)]).read
      (.ofString "k.json") = .ok unknownKeyword := by
    decide +kernel
  have hcomplaint : (Stop.configuration (.unknownName (.ofString "VAR"))).complaint =
      "Keyword configuration error: Unknown keyword token name: VAR\n" := by
    decide +kernel
  rw [← hcomplaint]
  exact ⟨hforeseen,
    (hrun _ _ none _ _ _ _ _ _ hargs (.given rfl) rfl (.file hread) he).1 hforeseen⟩

/-- A keyword file with a list where the name of a keyword is due. -/
def listedKeyword : ByteArray := "\x7b\"donnee\": [\"DATA\"]\x7d".toUTF8

/-- It fails otherwise, and the run breaks off without a complaint. -/
theorem load_listedKeyword :
    (∃ e, Aliases.load {} (some listedKeyword) = .error e ∧ e.category = .type) ∧
      ∃ f, runArguments Rules.newer.parse
        (Directory.workspace [(bytesOf "k.json", listedKeyword)]) none givenArguments =
          .ok ⟨.failure f, "", "", none⟩ := by
  have he : Aliases.load {} (some listedKeyword) = .error (.compoundName true) := by
    decide +kernel
  refine ⟨⟨_, he, rfl⟩, .badKeyword (.compoundName true), ?_⟩
  decide +kernel

end BlockLang.CommandLine
