import BlockLang.Proofs.Source.Faithful

/-!
# Trees that were read

What a text gives to a tree: if the symbols among the terminals are lone, so are the names of the
tree that they derive, and every expression in it has a source text. The grammar alone says the
rest, that operators are grouped as precedence groups them and that a loop over collections has a
name.
-/

namespace BlockLang

/-- **What a span yields** from lone symbols: a tree with the property `P`, and lone symbols behind
it. -/
def Yields {α : Type} (X : Span α) (P : α → Prop) : Prop :=
  ∀ ⦃ts a rest⦄, X ts a rest → LoneSymbols ts → P a ∧ LoneSymbols rest

namespace Yields

variable {α : Type} {X : Span α} {P : α → Prop}

theorem many (h : Yields X P) : Yields (ManySpan X) (fun as => ∀ a ∈ as, P a) := by
  intro ts as rest hspan
  induction hspan with
  | nil => exact fun hlone => ⟨by simp, hlone⟩
  | cons ha _ ih =>
    intro hlone
    obtain ⟨hfirst, hms⟩ := h ha hlone
    obtain ⟨hothers, hrest⟩ := ih hms
    exact ⟨List.forall_mem_cons.mpr ⟨hfirst, hothers⟩, hrest⟩

theorem comma (h : Yields X P) : Yields (CommaSpan X) P := by
  intro ts a rest hspan hlone
  cases hspan with
  | plain hX => exact h hX hlone
  | comma hX => exact h hX (loneSymbols_cons.mp hlone).2

theorem separated (h : Yields X P) : Yields (SepSpan X) (fun as => ∀ a ∈ as, P a) := by
  intro ts as rest hspan hlone
  cases hspan with
  | plain hmany => exact h.comma.many hmany hlone
  | comma hmany =>
    obtain ⟨has, hrest⟩ := h.comma.many hmany hlone
    exact ⟨has, (loneSymbols_cons.mp hrest).2⟩

/-- Two symbols with a token between them. -/
theorem pair {s s' : String} {k : Kind} {rest : List Terminal}
    (hlone : LoneSymbols (.symbol s :: .mark k :: .symbol s' :: rest)) :
    (Lone s ∧ Lone s') ∧ LoneSymbols rest := by
  simp only [loneSymbols_cons] at hlone
  exact ⟨⟨hlone.1 s rfl, hlone.2.2.1 s' rfl⟩, hlone.2.2.2⟩

end Yields

/-! ## Values and expressions -/

theorem yields_name : Yields NameSpan Lone := by
  intro ts s rest hspan hlone
  cases hspan
  rw [loneSymbols_cons] at hlone
  exact ⟨hlone.1 s rfl, hlone.2⟩

/-- A value of lone symbols can be written. -/
theorem yields_value : Yields ValueSpan (fun s => (Expr.value s).Writable) := by
  intro ts s rest hspan hlone
  refine ⟨valueSource_of_span hspan hlone, ?_⟩
  cases hspan with
  | name => exact (loneSymbols_cons.mp hlone).2
  | pointed => exact (loneSymbols_cons.mp (loneSymbols_cons.mp hlone).2).2
  | member =>
    simp only [loneSymbols_cons] at hlone
    exact hlone.2.2.2

theorem yields_atom : Yields AtomSpan (fun e => e.Writable ∧ e.isValue = true) := by
  intro ts e rest hspan hlone
  cases hspan with
  | value hv =>
    obtain ⟨hw, hrest⟩ := yields_value hv hlone
    exact ⟨⟨hw, rfl⟩, hrest⟩

/-- A chain of values is a term that can be written. -/
theorem yields_term : Yields TermSpan (fun e => e.Writable ∧ e.isAdditive = false) := by
  intro ts e rest hspan
  induction hspan with
  | one hatom =>
    intro hlone
    obtain ⟨⟨hw, hvalue⟩, hrest⟩ := yields_atom hatom hlone
    exact ⟨⟨hw, Expr.isAdditive_of_isValue hvalue⟩, hrest⟩
  | @more _ _ _ lhs op rhs _ hop hatom ih =>
    intro hlone
    obtain ⟨⟨hlhs, hterm⟩, hms⟩ := ih hlone
    obtain ⟨⟨hrhs, hvalue⟩, hrest⟩ := yields_atom hatom (loneSymbols_cons.mp hms).2
    have htight : op.isAdditive = false := by simpa using hop
    refine ⟨⟨Expr.writable_binary.mpr ⟨hlhs, hrhs, ?_, fun _ => ⟨hterm, hvalue⟩⟩, htight⟩, hrest⟩
    exact Expr.isAdditive_of_isValue hvalue

/-- **An expression of lone symbols can be written.** -/
theorem yields_expr : Yields ExprSpan Expr.Writable := by
  intro ts e rest hspan
  induction hspan with
  | one hterm =>
    intro hlone
    obtain ⟨⟨hw, -⟩, hrest⟩ := yields_term hterm hlone
    exact ⟨hw, hrest⟩
  | more _ hop hterm ih =>
    intro hlone
    obtain ⟨hlhs, hms⟩ := ih hlone
    obtain ⟨⟨hrhs, hno⟩, hrest⟩ := yields_term hterm (loneSymbols_cons.mp hms).2
    refine ⟨Expr.writable_binary.mpr ⟨hlhs, hrhs, hno, fun htight => ?_⟩, hrest⟩
    rw [hop] at htight
    cases htight

/-! ## Instructions -/

theorem yields_assignment : Yields AssignmentSpan (fun d => Lone d.name ∧ d.value.Writable) := by
  intro ts d rest hspan hlone
  cases hspan with
  | equal he =>
    simp only [loneSymbols_cons] at hlone
    obtain ⟨hw, hrest⟩ := yields_expr he hlone.2.2
    exact ⟨⟨hlone.1 _ rfl, hw⟩, hrest⟩

theorem yields_declaration : Yields DeclarationSpan (fun d => Lone d.name ∧ d.value.Writable) := by
  intro ts d rest hspan hlone
  cases hspan with
  | plain hd => exact yields_assignment hd hlone
  | letWord hd => exact yields_assignment hd (loneSymbols_cons.mp hlone).2

theorem yields_progression :
    Yields ProgressionSpan (fun p => (∀ n ∈ p.names, Lone n) ∧ p.expr.Writable) := by
  intro ts p rest hspan hlone
  cases hspan with
  | letWord hd =>
    obtain ⟨⟨hn, hw⟩, hrest⟩ := yields_assignment hd (loneSymbols_cons.mp hlone).2
    exact ⟨⟨by simpa [Progression.names] using hn, hw⟩, hrest⟩
  | plain hd _ =>
    obtain ⟨⟨hn, hw⟩, hrest⟩ := yields_assignment hd hlone
    exact ⟨⟨by simpa [Progression.names] using hn, hw⟩, hrest⟩
  | evaluate he =>
    obtain ⟨hw, hrest⟩ := yields_expr he hlone
    exact ⟨⟨by simp [Progression.names], hw⟩, hrest⟩

theorem yields_arguments :
    Yields ArgumentsSpan (fun as => ∀ a ∈ as, (Expr.value a).Writable) := by
  intro ts as rest hspan
  induction hspan with
  | nil => exact fun hlone => ⟨by simp, hlone⟩
  | value hv _ ih =>
    intro hlone
    obtain ⟨hw, hms⟩ := yields_value hv hlone
    obtain ⟨hothers, hrest⟩ := ih hms
    exact ⟨List.forall_mem_cons.mpr ⟨hw, hothers⟩, hrest⟩
  | other _ _ ih => exact fun hlone => ih (loneSymbols_cons.mp hlone).2

namespace Instruction

/-- Is what the instruction holds, outside its body, as a text gives it? -/
structure Given (i : Instruction) : Prop where
  named : ∀ n ∈ i.names, Lone n
  readable : i.Readable

mutual

/-- **An instruction of lone symbols** is as a text gives it, and so is everything inside it. -/
theorem yields : ∀ (i : Instruction) {ts rest : List Terminal}, InstructionSpan ts i rest →
    LoneSymbols ts → (∀ j ∈ i.all, j.Given) ∧ LoneSymbols rest
  | create group arguments, ts, rest, h, hlone => by
    cases h with
    | create ha =>
      simp only [loneSymbols_cons] at hlone
      obtain ⟨hw, hrest⟩ := yields_arguments ha hlone.2.2.2
      have hgiven : (create group arguments).Given :=
        ⟨by simpa [names] using hlone.2.1, by simpa [exprs] using hw, trivial⟩
      exact ⟨by simpa [all] using hgiven, (loneSymbols_cons.mp hrest).2⟩
  | declare d, ts, rest, h, hlone => by
    cases h with
    | declare hd =>
      obtain ⟨⟨hn, hw⟩, hrest⟩ := yields_assignment hd (loneSymbols_cons.mp hlone).2
      have hgiven : (declare d).Given :=
        ⟨by simpa [names] using hn, by simpa [exprs] using hw, trivial⟩
      exact ⟨by simpa [all] using hgiven, hrest⟩
  | branch condition body, ts, rest, h, hlone => by
    cases h with
    | branch hc hb =>
      obtain ⟨hw, hms⟩ := yields_expr hc (loneSymbols_cons.mp hlone).2
      obtain ⟨hinside, hrest⟩ := body_yields body hb hms
      have hgiven : (branch condition body).Given :=
        ⟨by simp [names], by simpa [exprs] using hw, trivial⟩
      exact ⟨List.forall_mem_cons.mpr ⟨hgiven, hinside⟩, hrest⟩
  | foreach ns collections body, ts, rest, h, hlone => by
    cases h with
    | foreach hns hcs hb =>
      simp only [loneSymbols_cons] at hlone
      obtain ⟨hnames, hms⟩ := yields_name.comma.many hns hlone.2.2
      obtain ⟨hw, hks⟩ := yields_expr.comma.many hcs (loneSymbols_cons.mp hms).2
      obtain ⟨hinside, hrest⟩ := body_yields body hb hks
      refine ⟨List.forall_mem_cons.mpr ⟨⟨?_, hw, List.cons_ne_nil _ _⟩, hinside⟩, hrest⟩
      exact List.forall_mem_cons.mpr ⟨hlone.2.1 _ rfl, hnames⟩
  | loop start condition step body, ts, rest, h, hlone => by
    cases h with
    | loop hs hc hp hb =>
      obtain ⟨⟨hn, hstart⟩, hms⟩ := yields_declaration hs (loneSymbols_cons.mp hlone).2
      obtain ⟨hcondition, hks⟩ := yields_expr hc (loneSymbols_cons.mp hms).2
      obtain ⟨⟨hnames, hstep⟩, hjs⟩ := yields_progression hp (loneSymbols_cons.mp hks).2
      obtain ⟨hinside, hrest⟩ := body_yields body hb hjs
      have hgiven : (loop start condition step body).Given := by
        refine ⟨List.forall_mem_cons.mpr ⟨hn, hnames⟩, ?_, trivial⟩
        simpa [exprs] using ⟨hstart, hcondition, hstep⟩
      exact ⟨List.forall_mem_cons.mpr ⟨hgiven, hinside⟩, hrest⟩

theorem body_yields : ∀ (b : List Instruction) {ts rest : List Terminal}, BodySpan ts b rest →
    LoneSymbols ts → (∀ j ∈ allIn b, j.Given) ∧ LoneSymbols rest
  | b, ts, rest, h, hlone => by
    cases h with
    | braces h =>
      obtain ⟨hinside, hrest⟩ := inside_yields b h (loneSymbols_cons.mp hlone).2
      exact ⟨hinside, (loneSymbols_cons.mp hrest).2⟩

theorem inside_yields : ∀ (b : List Instruction) {ts rest : List Terminal},
    ManySpan InstructionSpan ts b rest →
    LoneSymbols ts → (∀ j ∈ allIn b, j.Given) ∧ LoneSymbols rest
  | [], ts, rest, h, hlone => by
    cases h
    exact ⟨by simp [allIn], hlone⟩
  | i :: is, ts, rest, h, hlone => by
    cases h with
    | cons hi his =>
      obtain ⟨hfirst, hms⟩ := yields i hi hlone
      obtain ⟨hothers, hrest⟩ := inside_yields is his hms
      exact ⟨List.forall_mem_append.mpr ⟨hfirst, hothers⟩, hrest⟩

end

end Instruction

/-! ## Blocks -/

theorem yields_field : Yields FieldSpan (fun f => Lone f.name ∧ Lone f.type) := by
  intro ts f rest hspan hlone
  cases hspan
  exact Yields.pair hlone

theorem yields_parameter : Yields ParameterSpan (fun p => Lone p.name ∧ Lone p.type) := by
  intro ts p rest hspan hlone
  cases hspan
  exact Yields.pair hlone

theorem yields_fieldValue : Yields FieldValueSpan (fun v => Lone v.name ∧ Lone v.value) := by
  intro ts v rest hspan hlone
  cases hspan
  exact Yields.pair hlone

theorem yields_dataInstance : Yields DataInstanceSpan
    (fun d => Lone d.name ∧ ∀ v ∈ d.values, Lone v.name ∧ Lone v.value) := by
  intro ts d rest hspan hlone
  cases hspan with
  | parens hvs =>
    simp only [loneSymbols_cons] at hlone
    obtain ⟨hvalues, hrest⟩ := yields_fieldValue.separated hvs hlone.2.2
    exact ⟨⟨hlone.1 _ rfl, hvalues⟩, (loneSymbols_cons.mp hrest).2⟩

theorem yields_actions : Yields ActionsSpan (fun as => ∀ a ∈ as, Lone a) := by
  intro ts as rest hspan
  induction hspan with
  | nil => exact fun hlone => ⟨by simp, hlone⟩
  | symbol _ ih =>
    intro hlone
    rw [loneSymbols_cons] at hlone
    obtain ⟨hothers, hrest⟩ := ih hlone.2
    exact ⟨List.forall_mem_cons.mpr ⟨hlone.1 _ rfl, hothers⟩, hrest⟩
  | other _ _ ih => exact fun hlone => ih (loneSymbols_cons.mp hlone).2

/-- **A block of lone symbols** has lone names, and instructions as a text gives them. -/
theorem yields_block :
    Yields BlockSpan (fun b => (∀ n ∈ b.names, Lone n) ∧ ∀ i ∈ b.instructions, i.Given) := by
  intro ts b rest hspan hlone
  cases hspan with
  | data hfs =>
    simp only [loneSymbols_cons] at hlone
    obtain ⟨hfields, hrest⟩ := yields_field.separated hfs hlone.2.2.2
    have hnames : ∀ n ∈ (Block.data _ _).names, Lone n :=
      List.forall_mem_cons.mpr ⟨hlone.2.1 _ rfl, forall_mem_pairs.mpr hfields⟩
    exact ⟨⟨hnames, by simp [Block.instructions]⟩, (loneSymbols_cons.mp hrest).2⟩
  | group hps hds =>
    simp only [loneSymbols_cons] at hlone
    obtain ⟨hparameters, hms⟩ := yields_parameter.separated hps hlone.2.2.2
    simp only [loneSymbols_cons] at hms
    obtain ⟨hinstances, hrest⟩ := yields_dataInstance.separated hds hms.2.2
    refine ⟨⟨?_, by simp [Block.instructions]⟩, (loneSymbols_cons.mp hrest).2⟩
    refine List.forall_mem_append.mpr ⟨?_, List.forall_mem_flatMap.mpr fun d hd => ?_⟩
    · exact List.forall_mem_cons.mpr ⟨hlone.2.1 _ rfl, forall_mem_pairs.mpr hparameters⟩
    · obtain ⟨hname, hvalues⟩ := hinstances d hd
      exact List.forall_mem_cons.mpr ⟨hname, forall_mem_pairs.mpr hvalues⟩
  | action hb =>
    simp only [loneSymbols_cons] at hlone
    obtain ⟨hinside, hrest⟩ := Instruction.body_yields _ hb hlone.2.2
    exact ⟨⟨by simpa [Block.names] using hlone.2.1, hinside⟩, hrest⟩
  | run has hb =>
    simp only [loneSymbols_cons] at hlone
    obtain ⟨hactions, hms⟩ := yields_actions has hlone.2.2
    obtain ⟨hinside, hrest⟩ := Instruction.body_yields _ hb (loneSymbols_cons.mp hms).2
    exact ⟨⟨hactions, hinside⟩, hrest⟩

namespace Program

/-- **A program of lone symbols** has lone names, instructions as a text gives them, and bodies
nested no deeper than the limit. -/
theorem given_of_ofTokens {ts : List Token} {limit : Int} {p : Program} (he : EndFree ts)
    (hlone : LoneSymbols (BlockLang.terminals ts)) (h : ofTokens limit ts = .ok p) :
    p.Named ∧ (∀ i ∈ p.instructions, i.Given) ∧ p.depth ≤ limit.toNat := by
  obtain ⟨hderives, hdepth⟩ := (ofTokens_eq_ok _ he).mp h
  obtain ⟨hblocks, -⟩ := yields_block.many hderives hlone
  have hinstructions : ∀ i ∈ p.instructions, i.Given := by
    intro i hi
    obtain ⟨b, hb, hmem⟩ := List.mem_flatMap.mp hi
    exact (hblocks b hb).2 i hmem
  refine ⟨fun n hn => ?_, hinstructions, hdepth⟩
  rcases List.mem_append.mp hn with hn | hn
  · obtain ⟨b, hb, hmem⟩ := List.mem_flatMap.mp hn
    exact (hblocks b hb).1 n hmem
  · obtain ⟨i, hi, hmem⟩ := List.mem_flatMap.mp hn
    exact (hinstructions i hi).named n hmem

/-- A program that a text denotes is such a program. -/
theorem given_of_ofSource {s : String} {limit : Int} {p : Program}
    (h : ofSource .canonical limit s = .ok p) :
    p.Named ∧ (∀ i ∈ p.instructions, i.Given) ∧ p.depth ≤ limit.toNat := by
  obtain ⟨ts, hts, hp⟩ := exists_tokens_of_ofSource h
  exact given_of_ofTokens (tokenRun_of_tokensFrom hts).endFree (loneSymbols_of_tokenize hts) hp

end Program

end BlockLang
