import BlockLang.Proofs.Source.Derived

/-!
# Round trips

A program that a text denotes has a source text, and that source text denotes the program or
nothing at all. It denotes nothing exactly if a counting loop of the program has a step that sets a
name with a point, which may be read behind the word `let` but is written without it.

The terminals of a tree have one reading: every part of them has one, since the parses recognise
their spans. So a reading of the terminals reaches the step of every loop, and there a name with a
point in front of `=` cannot be read.
-/

namespace BlockLang

/-! ## One reading -/

section

variable {ws rest more : List Terminal}

/-- **A recognised span has one tree and one rest**, given what follows. -/
theorem Proper.unique {α : Type} {p : Parse α} {S : Span α} {F : List Terminal → Prop}
    (hp : Proper ws) (h : Parse.Recognizes p S F) {a b : α} (ha : S ws a rest) (hb : S ws b more)
    (hF : F rest) (hG : F more) : a = b ∧ rest = more := by
  obtain ⟨ts, he, rfl⟩ := hp.exists_tokens
  exact h.unique he ha hF hb hG

theorem InstructionSpan.unique (hp : Proper ws) {i j : Instruction} (hi : InstructionSpan ws i rest)
    (hj : InstructionSpan ws j more) (hr : NoOperators rest) (hm : NoOperators more) :
    i = j ∧ rest = more :=
  hp.unique (Parse.recognizes_instructionWith (Parse.recognizes_bodyWithin 0 (max i.depth j.depth)))
    ⟨hi, Nat.le_max_left _ _⟩ ⟨hj, Nat.le_max_right _ _⟩ hr hm

theorem BlockSpan.unique (hp : Proper ws) {b c : Block} (hb : BlockSpan ws b rest)
    (hc : BlockSpan ws c more) : b = c ∧ rest = more :=
  hp.unique (Parse.recognizes_block (max b.depth c.depth : Nat))
    ⟨hb, Nat.le_max_left _ _⟩ ⟨hc, Nat.le_max_right _ _⟩ trivial trivial

theorem ActionsSpan.unique {as bs : List String}
    (ha : ActionsSpan ws as (.mark (.delimiter .rightParen) :: rest))
    (hb : ActionsSpan ws bs (.mark (.delimiter .rightParen) :: more)) :
    as = bs ∧ rest = more := by
  generalize hend : Terminal.mark (.delimiter .rightParen) :: rest = us at ha
  induction ha generalizing bs with
  | nil =>
    subst hend
    cases hb with
    | nil => exact ⟨rfl, rfl⟩
    | other hk _ => exact absurd rfl hk
  | symbol _ ih =>
    cases hb with
    | symbol hb =>
      obtain ⟨rfl, rfl⟩ := ih hb hend
      exact ⟨rfl, rfl⟩
  | other hk _ ih =>
    cases hb with
    | nil => exact absurd rfl hk
    | other _ hb => exact ih hb hend

end

/-! ## What can be read back -/

/-- Behind an instruction comes another one or the end of the body. -/
theorem noOperators_of_instructions {ts rest : List Terminal} {b : List Instruction}
    (h : ManySpan InstructionSpan ts b (.mark (.delimiter .rightBrace) :: rest)) :
    NoOperators ts := by
  cases h with
  | nil => simp
  | cons hi _ =>
    obtain ⟨k, us, rfl⟩ := hi.keyword
    simp

/-! ### What is left behind

Whatever the terminals of a part of an instruction are read as, the same is left.
-/

section

variable {ts ms rest : List Terminal} {b : List Instruction}

theorem Expr.rest_of_span {e e' : Expr} (hw : e.Writable) (hp : Proper (e.terminals ++ ts))
    (hends : EndsValue ts) (hts : NoOperators ts) (h : ExprSpan (e.terminals ++ ts) e' ms)
    (hms : NoOperators ms) : ms = ts :=
  (hp.unique Parse.recognizes_expression h (Expr.spans hw _ hends) hms hts).2

/-- A declaration in front of another clause. -/
theorem Declaration.rest_of_span {d d' : Declaration} (hw : d.value.Writable)
    (hp : Proper
      (.mark (.keyword .letWord) :: (d.terminals ++ .mark (.delimiter .semicolon) :: ts)))
    (h : DeclarationSpan
      (.mark (.keyword .letWord) :: (d.terminals ++ .mark (.delimiter .semicolon) :: ts)) d'
      (.mark (.delimiter .semicolon) :: ms)) : ms = ts := by
  have hown := Declaration.spans hw (.mark (.delimiter .semicolon) :: ts) (by simp)
  obtain ⟨-, heq⟩ := hp.unique Parse.recognizes_declaration h (.letWord hown) (by simp) (by simp)
  injection heq

/-- A step in front of a body, if it sets no name with a point. -/
theorem Progression.rest_of_span {p p' : Progression} (hw : p.expr.Writable)
    (hu : ∀ d, p = .assign d → '.' ∉ d.name.toList) (hp : Proper (p.terminals ++ ts))
    (hts : StartsWith (.delimiter .leftBrace) ts) (h : ProgressionSpan (p.terminals ++ ts) p' ms)
    (hb : BodySpan ms b rest) : ms = ts := by
  obtain ⟨us, rfl⟩ := hts
  have hown := Progression.spans hw hu (.mark (.delimiter .leftBrace) :: us) (by simp)
  have hbehind := And.intro hb.noOperators (hb.not_startsWith (k := .delimiter .equal) (by simp))
  exact (hp.unique Parse.recognizes_progression h hown hbehind (by simp)).2

/-- The names of a loop over collections, up to the word behind them. -/
theorem rest_of_names {names ns : List String}
    (hp : Proper (commaList (fun n => [.symbol n]) names ++ .mark (.keyword .inWord) :: ts))
    (h : ManySpan (CommaSpan NameSpan)
      (commaList (fun n => [.symbol n]) names ++ .mark (.keyword .inWord) :: ts) ns
      (.mark (.keyword .inWord) :: ms)) : ms = ts := by
  have hown := names_span names (.mark (.keyword .inWord) :: ts) (by simp)
  obtain ⟨-, heq⟩ := hp.unique Parse.recognizes_loopNames ⟨h, _, rfl⟩ ⟨hown, _, rfl⟩ trivial trivial
  injection heq

/-- The collections of a loop, up to its body. -/
theorem rest_of_collections {collections cs : List Expr} (hw : ∀ e ∈ collections, e.Writable)
    (hp : Proper (commaList Expr.terminals collections ++ ts))
    (hts : StartsWith (.delimiter .leftBrace) ts)
    (h : ManySpan (CommaSpan ExprSpan) (commaList Expr.terminals collections ++ ts) cs ms)
    (hb : BodySpan ms b rest) : ms = ts := by
  obtain ⟨us, rfl⟩ := hts
  have hown := commaList_spans (X := ExprSpan) collections
    (fun e he _ hends => Expr.spans (hw e he) _ hends) (.mark (.delimiter .leftBrace) :: us)
    (by simp)
  exact (hp.unique Parse.recognizes_collections ⟨h, hb.startsWith⟩ ⟨hown, by simp⟩ trivial
    trivial).2

end

/-- A step that is read back sets no name with a point. -/
theorem Progression.undotted_of_span {p q : Progression} {ts rest : List Terminal}
    {b : List Instruction} {ms : List Terminal}
    (h : ProgressionSpan (p.terminals ++ ts) q ms) (hbody : BodySpan ms b rest) :
    ∀ d, p = .assign d → '.' ∉ d.name.toList := by
  rintro d rfl
  cases h with
  | plain ha hdot =>
    cases ha
    exact hdot
  | evaluate he =>
    -- the first value is the name, and `=` is neither an operator nor the brace of the body
    obtain ⟨s, us, hv, hus⟩ := ExprSpan.afterFirst he
    cases hbody
    cases hv with
    | name => rcases hus with hus | ⟨op, more, hus⟩ <;> cases hus

namespace Instruction

theorem noOperators_bodyTerminals {b : List Instruction} {rest : List Terminal} :
    NoOperators (bodyTerminals b ++ .mark (.delimiter .rightBrace) :: rest) := by
  cases b with
  | nil => simp [bodyTerminals]
  | cons i is =>
    obtain ⟨k, us, hi⟩ := terminals_keyword i
    simp [bodyTerminals, hi]

/-- Between the braces of a body stand its instructions, up to a closing brace. -/
theorem spans_of_bodySpan {ws rest ms : List Terminal} {b : List Instruction}
    (h : BodySpan (braced ws ++ rest) b ms) :
    ManySpan InstructionSpan (ws ++ .mark (.delimiter .rightBrace) :: rest) b
      (.mark (.delimiter .rightBrace) :: ms) := by
  simp only [braced, List.cons_append, List.append_assoc, List.nil_append] at h
  cases h with
  | braces hinside => exact hinside

theorem proper_of_braced {ws rest : List Terminal} (h : Proper (braced ws ++ rest)) :
    Proper (ws ++ .mark (.delimiter .rightBrace) :: rest) := by
  simp only [braced, List.cons_append, List.append_assoc, List.nil_append] at h
  exact (proper_cons.mp h).2

mutual

/-- **An instruction that is read back**, as whatever it may be, has no step that sets a name with a
point. -/
theorem undotted_of_span : ∀ (i : Instruction), (∀ j ∈ i.all, j.Readable) →
    ∀ {i' : Instruction} {rest ms : List Terminal}, Proper (i.terminals ++ rest) →
      InstructionSpan (i.terminals ++ rest) i' ms → ∀ j ∈ i.all, j.Undotted
  | create group arguments, _, i', rest, ms, _, _ => by simp [all, Undotted]
  | declare d, _, i', rest, ms, _, _ => by simp [all, Undotted]
  | branch condition body, h, i', rest, ms, hp, hspan => by
    have hown := h _ (mem_all _)
    rw [all, List.forall_mem_cons] at h
    simp only [terminals, List.cons_append, List.append_assoc] at hp hspan
    cases hspan with
    | branch hc hb =>
      have hcondition := (proper_cons.mp hp).2
      obtain rfl := Expr.rest_of_span (hown.writable condition (by simp [exprs])) hcondition
        (by simp [braced]) (by simp [braced]) hc hb.noOperators
      have hinside := undotted_of_spans body h.2
        (proper_of_braced (proper_append.mp hcondition).2) (spans_of_bodySpan hb)
      exact List.forall_mem_cons.mpr ⟨trivial, hinside⟩
  | foreach ns collections body, h, i', rest, ms, hp, hspan => by
    have hown := h _ (mem_all _)
    rw [all, List.forall_mem_cons] at h
    obtain ⟨n, ns, rfl⟩ := List.exists_cons_of_ne_nil hown.named
    simp only [terminals, List.cons_append, List.append_assoc] at hp hspan
    have hnames := (proper_cons.mp hp).2
    cases hspan with
    | foreach hns hcs hb =>
      -- the first of the names stands in front of those that the span lists
      obtain rfl := rest_of_names hnames (.cons (.plain .symbol) hns)
      have hcollections := (proper_cons.mp (proper_append.mp hnames).2).2
      obtain rfl := rest_of_collections hown.writable hcollections (by simp [braced]) hcs hb
      have hinside := undotted_of_spans body h.2
        (proper_of_braced (proper_append.mp hcollections).2) (spans_of_bodySpan hb)
      exact List.forall_mem_cons.mpr ⟨trivial, hinside⟩
  | loop start condition step body, h, i', rest, ms, hp, hspan => by
    have hw := (h _ (mem_all _)).writable
    rw [all, List.forall_mem_cons] at h
    simp only [terminals, List.cons_append, List.append_assoc] at hp hspan
    have hdeclaration := (proper_cons.mp hp).2
    cases hspan with
    | loop hs hc hstep hb =>
      obtain rfl := Declaration.rest_of_span (hw start.value (by simp [exprs])) hdeclaration hs
      simp only [proper_cons, proper_append] at hdeclaration
      have heq := Expr.rest_of_span (hw condition (by simp [exprs])) (by simp [hdeclaration])
        (by simp) (by simp) hc (by simp)
      injection heq with _ heq
      subst heq
      -- only a step that sets no pointed name is known to end where it was written to end
      have hundotted := Progression.undotted_of_span hstep hb
      obtain rfl := Progression.rest_of_span (hw step.expr (by simp [exprs])) hundotted
        (by simp [hdeclaration]) (by simp [braced]) hstep hb
      have hinside := undotted_of_spans body h.2 (proper_of_braced (by simp [hdeclaration]))
        (spans_of_bodySpan hb)
      refine List.forall_mem_cons.mpr ⟨?_, hinside⟩
      cases step with
      | assign d => exact hundotted d rfl
      | evaluate e => trivial

theorem undotted_of_spans : ∀ (b : List Instruction), (∀ j ∈ allIn b, j.Readable) →
    ∀ {b' : List Instruction} {rest ms : List Terminal},
      Proper (bodyTerminals b ++ .mark (.delimiter .rightBrace) :: rest) →
      ManySpan InstructionSpan (bodyTerminals b ++ .mark (.delimiter .rightBrace) :: rest) b'
        (.mark (.delimiter .rightBrace) :: ms) →
      ∀ j ∈ allIn b, j.Undotted
  | [], _, b', rest, ms, _, _ => by simp [allIn]
  | i :: is, h, b', rest, ms, hp, hspan => by
    rw [allIn, List.forall_mem_append] at h
    rw [bodyTerminals, List.append_assoc] at hp hspan
    generalize hts : i.terminals ++
      (bodyTerminals is ++ Terminal.mark (.delimiter .rightBrace) :: rest) = ts at hspan
    cases hspan with
    | nil =>
      obtain ⟨k, us, hi⟩ := terminals_keyword i
      rw [hi] at hts
      cases hts
    | cons hi his =>
      subst hts
      -- what is read back of the first instruction is the instruction, so the others follow it
      have hfirst := undotted_of_span i h.1 hp hi
      have hends : EndsValue (bodyTerminals is ++ .mark (.delimiter .rightBrace) :: rest) :=
        endsValue_bodyTerminals (by simp)
      have hspans := spans i (fun j hj => ⟨h.1 j hj, hfirst j hj⟩) _ hends
      obtain ⟨-, rfl⟩ := InstructionSpan.unique hp hi hspans (noOperators_of_instructions his)
        noOperators_bodyTerminals
      have hothers := undotted_of_spans is h.2 (proper_append.mp hp).2 his
      exact List.forall_mem_append.mpr ⟨hfirst, hothers⟩

end

end Instruction

/-- **A block that is read back** has no step that sets a name with a point. -/
theorem Block.undotted_of_span {b b' : Block} {rest ms : List Terminal}
    (h : ∀ i ∈ b.instructions, i.Readable) (hp : Proper (b.terminals ++ rest))
    (hspan : BlockSpan (b.terminals ++ rest) b' ms) : ∀ i ∈ b.instructions, i.Undotted := by
  cases b with
  | data => simp [instructions]
  | group => simp [instructions]
  | action name body =>
    simp only [terminals, List.cons_append, proper_cons] at hp hspan
    cases hspan with
    | action hb =>
      exact Instruction.undotted_of_spans body h (Instruction.proper_of_braced hp.2.2)
        (Instruction.spans_of_bodySpan hb)
  | run actions body =>
    simp only [terminals, parenthesized, List.cons_append, List.append_assoc, List.nil_append]
      at hp hspan
    have hactions := names_span actions (.mark (.delimiter .rightParen) ::
      (braced (Instruction.bodyTerminals body) ++ rest)) (by simp)
    cases hspan with
    | run ha hb =>
      obtain ⟨-, rfl⟩ := ActionsSpan.unique ha (.of_commas hactions)
      simp only [proper_cons, proper_append] at hp
      exact Instruction.undotted_of_spans body h (Instruction.proper_of_braced (by simp [hp]))
        (Instruction.spans_of_bodySpan hb)

namespace Program

/-- Terminals derive one program at most. -/
theorem Derives.unique {ws : List Terminal} {p q : Program} (hws : Proper ws) (hp : Derives ws p)
    (hq : Derives ws q) : p = q := by
  obtain ⟨ts, he, rfl⟩ := hws.exists_tokens
  have hp' := (ofTokens_eq_ok (max p.depth q.depth : Nat) he).mpr
    ⟨hp, Nat.le_max_left _ _⟩
  have hq' := (ofTokens_eq_ok (max p.depth q.depth : Nat) he).mpr
    ⟨hq, Nat.le_max_right _ _⟩
  rw [hp'] at hq'
  injection hq'

/-- **A program that is read back**, as whatever it may be, has no step that sets a name with a
point. -/
theorem undotted_of_derives {p q : Program} (h : ∀ i ∈ p.instructions, i.Readable)
    (hp : Proper p.terminals) (hq : Derives p.terminals q) :
    ∀ i ∈ p.instructions, i.Undotted := by
  obtain ⟨bs⟩ := p
  obtain ⟨bs'⟩ := q
  change ManySpan BlockSpan (bs.flatMap Block.terminals) bs' [] at hq
  change Proper (bs.flatMap Block.terminals) at hp
  induction bs generalizing bs' with
  | nil => simp [instructions]
  | cons b bs ih =>
    rw [instructions, List.flatMap_cons, List.forall_mem_append] at h
    rw [List.flatMap_cons] at hp hq
    generalize hts : b.terminals ++ bs.flatMap Block.terminals = ts at hq
    cases hq with
    | nil => cases b <;> cases hts
    | cons hb hbs =>
      subst hts
      have hfirst := Block.undotted_of_span h.1 hp hb
      have hspans := Block.spans (fun i hi => ⟨h.1 i hi, hfirst i hi⟩) (bs.flatMap Block.terminals)
      obtain ⟨-, rfl⟩ := BlockSpan.unique hp hb hspans
      have hothers := ih h.2 _ hbs (proper_append.mp hp).2
      rw [instructions, List.flatMap_cons]
      exact List.forall_mem_append.mpr ⟨hfirst, hothers⟩

/-- **Reading what was written of a program that was read.** The source text exists. It denotes no
other program, and it denotes the program, which is then written as that text again, exactly if no
step of a counting loop sets a name with a point. -/
theorem ofSource_source_of_ofSource {s : String} {p : Program}
    (h : ofSource .canonical defaultLimit s = .ok p) :
    ∃ t, p.source = .ok t ∧ (∀ q, ofSource .canonical defaultLimit t = .ok q → q = p) ∧
      ((∃ q, ofSource .canonical defaultLimit t = .ok q ∧ q = p ∧ q.source = .ok t) ↔
        ∀ i ∈ p.instructions, i.Undotted) := by
  obtain ⟨hnamed, hgiven, hdepth⟩ := given_of_ofSource h
  have hreadable : ∀ i ∈ p.instructions, i.Readable := fun i hi => (hgiven i hi).readable
  obtain ⟨t, ht, hread⟩ := source_reads hnamed fun i hi => (hreadable i hi).writable
  -- the text that is written is cut into tokens, so its terminals are those of tokens
  have hproper : Proper p.terminals := by
    obtain ⟨ts, hts, hterminals⟩ := hread.tokensFrom .start
    rw [← hterminals]
    exact (tokenRun_of_tokensFrom hts).endFree.proper
  have hderives : (∀ i ∈ p.instructions, i.Undotted) → Derives p.terminals p :=
    fun hu => terminals_derive fun i hi => ⟨hreadable i hi, hu i hi⟩
  refine ⟨t, ht, fun q hq => ?_, ?_, fun hu => ?_⟩
  · obtain ⟨hq, -⟩ := (ofSource_iff hread defaultLimit q).mp hq
    have hu := undotted_of_derives hreadable hproper hq
    exact Derives.unique hproper hq (hderives hu)
  · rintro ⟨q, hq, -, -⟩
    obtain ⟨hq, -⟩ := (ofSource_iff hread defaultLimit q).mp hq
    exact undotted_of_derives hreadable hproper hq
  · exact ⟨p, (ofSource_iff hread defaultLimit p).mpr ⟨hderives hu, hdepth⟩, rfl, ht⟩

/-- An action with one counting loop over `i`, which goes on with `step`. -/
def countingLoop (step : Progression) : Program :=
  ⟨[.action "f" [.loop ⟨"i", .value "0"⟩ (.value "i") step []]]⟩

/-- A step that is spelled with its word is read back without it. -/
theorem ofSource_source_spelledStep :
    ∃ t, (countingLoop (.assign ⟨"i", .value "1.5"⟩)).source = .ok t ∧
      ∃ q, ofSource .canonical defaultLimit t = .ok q ∧
        q = countingLoop (.assign ⟨"i", .value "1.5"⟩) ∧ q.source = .ok t := by
  have hread : ofSource .canonical defaultLimit
      "do f \x7b for let i = 0; i; let i = 1.5 \x7b \x7d \x7d" =
        .ok (countingLoop (.assign ⟨"i", .value "1.5"⟩)) := by decide +kernel
  obtain ⟨t, ht, -, hiff⟩ := ofSource_source_of_ofSource hread
  exact ⟨t, ht, hiff.mpr (by decide +kernel)⟩

/-- A step that sets a number with a point is accepted behind its word, written without it, and
refused when it is read back. -/
theorem ofSource_source_pointedStep :
    ofSource .canonical defaultLimit "do f \x7b for let i = 0; i; let 1.5 = 2 \x7b \x7d \x7d" =
        .ok (countingLoop (.assign ⟨"1.5", .value "2"⟩)) ∧
      (countingLoop (.assign ⟨"1.5", .value "2"⟩)).source =
        .ok "do f \x7b\n    for let i = 0; i; 1.5 = 2 \x7b\x7d\n\x7d\n" ∧
      ∀ q, ofSource .canonical defaultLimit
        "do f \x7b\n    for let i = 0; i; 1.5 = 2 \x7b\x7d\n\x7d\n" ≠ .ok q := by
  have herror : (ofSource .canonical defaultLimit
      "do f \x7b\n    for let i = 0; i; 1.5 = 2 \x7b\x7d\n\x7d\n").toOption = none := by
    decide +kernel
  refine ⟨by decide +kernel, by decide +kernel, fun q hq => ?_⟩
  rw [hq] at herror
  cases herror

end Program

end BlockLang
