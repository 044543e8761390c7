import BlockLang.CommandLine.Options
import Mathlib

/-!
# Arguments that all rules read alike

What is joined to an option is read by older or by newer rules. They agree as long as it is joined
plainly: letters of options behind letters of options, and a value that is not two hyphens. Where
they part, they may come to different options, or one of them takes what the other refuses.
-/

namespace BlockLang.CommandLine

open BlockLang.Text

/-- The letters behind an option are all options. -/
def Lettered (joined : List Point) : Prop := ∀ p ∈ joined, ∃ flag, Flag.ofLetter? p = some flag

/-- **Plain arguments**: no value is two hyphens, and behind an option without a value there are
only letters of further options. -/
def Argument.Plain : Argument → Prop
  | positional v | long _ (some v) => v ≠ .ofString "--"
  | long _ none | separator | unknown => True
  | short flag assigned joined =>
    if flag.takesValue then (⟨joined⟩ : LooseText) ≠ .ofString "--"
    else assigned = false ∧ Lettered joined

/-- A hyphen is no letter, so two of them are no letters of options. -/
theorem Lettered.ne_hyphens {joined : List Point} (h : Lettered joined) :
    (⟨joined⟩ : LooseText) ≠ .ofString "--" := by
  intro heq
  obtain rfl : joined = [.char '-', .char '-'] := congrArg LooseText.points heq
  obtain ⟨flag, hflag⟩ := h (.char '-') (by simp)
  exact absurd hflag (by decide +revert)

/-- Neither is an equals sign. -/
theorem Lettered.ne_equals {joined : List Point} (h : Lettered joined) (value : List Point) :
    joined ≠ .char '=' :: value := by
  rintro rfl
  obtain ⟨flag, hflag⟩ := h (.char '=') (by simp)
  exact absurd hflag (by decide +revert)

namespace Rules

/-! ## Joined options -/

/-- What is joined to an option that needs a value is its value. -/
theorem cluster_value (r : Rules) {flag : Flag} (hvalue : flag.takesValue = true) (assigned : Bool)
    (p : Point) (ps : List Point) :
    r.cluster flag assigned (p :: ps) = .ok ⟨[(flag, ⟨p :: ps⟩)], none, false⟩ := by
  rw [cluster.eq_def]
  exact if_pos hvalue

/-- A letter of an option behind one without a value goes on with that option. -/
theorem cluster_letter (r : Rules) {flag next : Flag} {p : Point} {ps : List Point}
    (hvalue : ¬ flag.takesValue = true) (hnext : Flag.ofLetter? p = some next)
    (hps : Lettered ps) :
    r.cluster flag false (p :: ps) = (r.cluster next false ps).map (cluster.behind flag) := by
  have hhyphen : p ≠ .char '-' := by
    rintro rfl
    exact absurd hnext (by decide +revert)
  rw [cluster.eq_def]
  dsimp only
  rw [if_neg hvalue, if_neg (by simp [hhyphen]), hnext]
  -- the equals sign that the newer rules look for is not there
  split
  · next heq => cases heq
  · next heq => cases heq
  · exact absurd rfl (hps.ne_equals _)
  · next heq _ =>
    cases heq
    rfl

/-- Letters of options are read alike. -/
theorem cluster_of_lettered {joined : List Point} (h : Lettered joined) (flag : Flag) :
    older.cluster flag false joined = newer.cluster flag false joined := by
  induction joined generalizing flag with
  | nil => rw [cluster, cluster]
  | cons p ps ih =>
    obtain ⟨⟨next, hnext⟩, hps⟩ := List.forall_mem_cons.mp h
    by_cases hvalue : flag.takesValue = true
    · rw [cluster_value older hvalue, cluster_value newer hvalue]
    · rw [cluster_letter older hvalue hnext hps, cluster_letter newer hvalue hnext hps, ih hps]

/-- A value behind letters of options consists of such letters too. -/
theorem lettered_value {r : Rules} {joined : List Point} (h : Lettered joined) {flag : Flag}
    {c : Cluster} (hc : r.cluster flag false joined = .ok c) {s : Setting} (hs : s ∈ c.settings) :
    Lettered s.2.points := by
  induction joined generalizing flag c with
  | nil =>
    rw [cluster] at hc
    split_ifs at hc <;> cases hc <;> simp_all [Lettered]
  | cons p ps ih =>
    obtain ⟨⟨next, hnext⟩, hps⟩ := List.forall_mem_cons.mp h
    by_cases hvalue : flag.takesValue = true
    · rw [cluster_value r hvalue] at hc
      cases hc
      obtain rfl := List.mem_singleton.mp hs
      exact h
    · rw [cluster_letter r hvalue hnext hps] at hc
      cases hrest : r.cluster next false ps with
      | error u =>
        rw [hrest] at hc
        cases hc
      | ok c' =>
        rw [hrest] at hc
        cases hc
        rcases List.mem_cons.mp hs with rfl | hs
        · exact List.forall_mem_nil _
        · exact ih hps hrest hs

/-- **Plain joined options** are read alike, and no value of theirs is two hyphens. -/
theorem cluster_of_plain {flag : Flag} {assigned : Bool} {joined : List Point}
    (h : (Argument.short flag assigned joined).Plain) :
    older.cluster flag assigned joined = newer.cluster flag assigned joined ∧
      ∀ c, newer.cluster flag assigned joined = .ok c →
        ∀ s ∈ c.settings, s.2 ≠ .ofString "--" := by
  rw [Argument.Plain] at h
  split_ifs at h with hvalue
  · cases joined with
    | nil =>
      refine ⟨by rw [cluster, cluster], fun c hc s hs => ?_⟩
      rw [cluster, if_pos hvalue] at hc
      split_ifs at hc <;> cases hc
      · obtain rfl := List.mem_singleton.mp hs
        exact h
      · cases hs
    | cons p ps =>
      rw [cluster_value older hvalue, cluster_value newer hvalue]
      refine ⟨rfl, fun c hc s hs => ?_⟩
      cases hc
      obtain rfl := List.mem_singleton.mp hs
      exact h
  · obtain ⟨rfl, hletters⟩ := h
    exact ⟨cluster_of_lettered hletters flag,
      fun c hc s hs => (lettered_value hletters hc hs).ne_hyphens⟩

/-! ## Whole argument lists -/

variable {s : Setting}

theorem set_eq (hs : s.2 ≠ .ofString "--") (d : Draft) : older.set d s = newer.set d s := by
  obtain ⟨flag, v⟩ := s
  have hvalue : older.actualValue? v = newer.actualValue? v := by
    rw [actualValue?, actualValue?, if_neg (by simpa using hs), if_neg (by simp)]
  cases flag <;> simp only [set, formOf?, hvalue]

theorem setAll_eq {settings : List Setting} (h : ∀ s ∈ settings, s.2 ≠ .ofString "--") (d : Draft) :
    older.setAll d settings = newer.setAll d settings := by
  induction settings generalizing d with
  | nil => rfl
  | cons s settings ih =>
    obtain ⟨hs, hrest⟩ := List.forall_mem_cons.mp h
    simp only [setAll, List.foldlM_cons, set_eq hs] at ih ⊢
    exact congrArg _ (funext (ih hrest))

/-- **Plain arguments are read alike**, whatever was read before. -/
theorem readArguments_eq {args : List Argument} (h : ∀ a ∈ args, a.Plain) (d : Draft) :
    older.readArguments d args = newer.readArguments d args := by
  -- one case for every place in the arguments where the reading goes on or fails
  fun_induction readArguments older d args <;> rw [readArguments.eq_def newer]
  case case2 hsource ih => simpa only [hsource] using ih fun a ha => h a (.tail _ ha)
  case case3 hsource rest ih =>
    simpa only [hsource] using ih fun a ha => h a (.tail _ (.tail _ ha))
  case case4 hsource rest hother ih =>
    simpa only [hsource] using ih fun a ha => h a (.tail _ ha)
  case case5 rest hsource ih =>
    simpa only [hsource] using ih fun a ha => h a (.tail _ (.tail _ ha))
  case case6 hother ih =>
    dsimp only
    split
    · next hsource => exact (hother _ _ hsource rfl).elim
    · exact ih fun a ha => h a (.tail _ ha)
  case case7 ih => exact ih fun a ha => h a (.tail _ ha)
  case case8 hvalue v rest ih =>
    have hv : v ≠ .ofString "--" := h _ (.tail _ (.head _))
    dsimp only
    rw [if_pos hvalue, set_eq hv]
    exact bind_congr fun d => ih d fun a ha => h a (.tail _ (.tail _ ha))
  case case9 hvalue hother => simp only [hvalue, if_true]
  case case10 hvalue ih =>
    have hempty : (⟨[]⟩ : LooseText) ≠ .ofString "--" := by decide
    dsimp only
    rw [if_neg hvalue, set_eq hempty]
    exact bind_congr fun d => ih d fun a ha => h a (.tail _ ha)
  case case11 v rest hvalue ih =>
    have hv : v ≠ .ofString "--" := h _ (.head _)
    dsimp only
    rw [if_pos hvalue, set_eq hv]
    exact bind_congr fun d => ih d fun a ha => h a (.tail _ ha)
  case case12 hvalue => exact (if_neg hvalue).symm
  case case13 hcluster =>
    simp only [← (cluster_of_plain (h _ (.head _))).1, hcluster]
  case case14 c hcluster _ rest hawaiting ih =>
    obtain ⟨heq, hvalues⟩ := cluster_of_plain (h _ (.head _))
    rw [heq] at hcluster
    simp only [hcluster, hawaiting, setAll_eq (hvalues c hcluster)]
    exact bind_congr fun d => ih d fun a ha => h a (.tail _ ha)
  case case15 c hcluster _ last v rest hawaiting ih =>
    obtain ⟨heq, hvalues⟩ := cluster_of_plain (h _ (.head _))
    rw [heq] at hcluster
    have hv : v ≠ .ofString "--" := h _ (.tail _ (.head _))
    have hall : ∀ s ∈ c.settings ++ [(last, v)], s.2 ≠ .ofString "--" :=
      List.forall_mem_append.mpr ⟨hvalues c hcluster, List.forall_mem_singleton.mpr hv⟩
    simp only [hcluster, hawaiting, setAll_eq hall]
    exact bind_congr fun d => ih d fun a ha => h a (.tail _ (.tail _ ha))
  case case16 hcluster last hawaiting hother =>
    rw [(cluster_of_plain (h _ (.head _))).1] at hcluster
    simp only [hcluster, hawaiting]

/-- **Both sets of rules come to the same** if all arguments are plain. -/
theorem parse_eq {argv : List LooseText}
    (h : ∀ args, classifyAll argv = .ok args → ∀ a ∈ args, a.Plain) :
    older.parse argv = newer.parse argv := by
  rw [parse, parse]
  cases hargs : classifyAll argv with
  | error u => rfl
  | ok args =>
    have heq := readArguments_eq (h args hargs) {}
    simp only [bind, Except.bind, heq]

/-- The equals sign behind a second letter is where they part. -/
example : (older.parse (["-so=x", "a"].map .ofString)).map Options.out =
      .ok (some (.ofString "=x")) ∧
    (newer.parse (["-so=x", "a"].map .ofString)).map Options.out = .ok (some (.ofString "x")) := by
  decide +kernel

/-- So is a value that is two hyphens. -/
example : (older.parse (["--out=--", "a"].map .ofString)).map Options.out = .ok none ∧
    (newer.parse (["--out=--", "a"].map .ofString)).map Options.out =
      .ok (some (.ofString "--")) := by
  decide +kernel

end Rules

end BlockLang.CommandLine
