import BlockLang.Proofs.Grammar.Laws

/-!
# More terminals behind a span

A span stays one if more terminals come behind what it leaves. If it leaves nothing, the terminals
that come must not go on with a value: points are greedy, and so is a symbol behind a point.
-/

namespace BlockLang

/-- **More terminals may come behind** whatever the span `X` leaves. -/
def Extends {α : Type} (X : Span α) : Prop :=
  ∀ ⦃ts a rest⦄, X ts a rest → ∀ xs, (rest = [] → EndsValue xs) → X (ts ++ xs) a (rest ++ xs)

/-- Behind nothing there is nothing. -/
theorem eq_nil_of_length_le {ts rest : List Terminal} (h : rest.length ≤ ts.length)
    (hts : ts = []) : rest = [] := by
  rw [hts] at h
  exact List.eq_nil_of_length_eq_zero (Nat.le_zero.mp h)

namespace Extends

variable {α : Type} {X : Span α}

/-- What ends a value at the end of a span ends it everywhere else. -/
theorem many (h : Extends X) (hX : ∀ {ts a rest}, X ts a rest → rest.length ≤ ts.length) :
    Extends (ManySpan X) := by
  intro ts as rest hspan xs hxs
  induction hspan with
  | nil => exact .nil
  | cons ha has ih =>
    -- the item leaves nothing only if the repetition does
    have hle := has.length_le fun _ h => hX h
    exact .cons (h ha xs fun hms => hxs (eq_nil_of_length_le hle hms)) (ih hxs)

theorem comma (h : Extends X) : Extends (CommaSpan X) := by
  intro ts a rest hspan xs hxs
  cases hspan with
  | plain ha => exact .plain (h ha xs hxs)
  | comma ha => exact .comma (h ha xs hxs)

theorem separated (h : Extends X) (hX : ∀ {ts a rest}, X ts a rest → rest.length < ts.length) :
    Extends (SepSpan X) := by
  have hmany : Extends (ManySpan (CommaSpan X)) :=
    h.comma.many fun ha => Nat.le_of_lt (CommaSpan.shorter hX ha)
  intro ts as rest hspan xs hxs
  cases hspan with
  | plain has => exact .plain (hmany has xs hxs)
  | comma has => exact .comma (hmany has xs (by simp))

end Extends

/-! ## Expressions -/

theorem extends_name : Extends NameSpan := by
  intro ts s rest hspan xs _
  cases hspan
  exact .symbol

theorem extends_value : Extends ValueSpan := by
  intro ts s rest hspan xs hxs
  cases hspan with
  | name hdot =>
    refine .name ?_
    cases rest with
    | nil => exact (hxs rfl).1
    | cons w rest => simpa using hdot
  | pointed hsymbol =>
    refine .pointed ?_
    cases rest with
    | nil => exact (hxs rfl).2
    | cons w rest =>
      intro m more heq
      injection heq with hw _
      exact hsymbol m rest (by rw [hw])
  | member => exact .member

theorem extends_atom : Extends AtomSpan := by
  intro ts e rest hspan xs hxs
  cases hspan with
  | value hv => exact .value (extends_value hv xs hxs)

/-- The operand in front of an operator leaves something. -/
theorem extends_chain {admits : Operator → Bool} {X : Span Expr} (h : Extends X) :
    Extends (ChainSpan admits X) := by
  intro ts e rest hspan xs hxs
  induction hspan with
  | one hX => exact .one (h hX xs hxs)
  | more _ hop hX ih => exact .more (ih (by simp)) hop (h hX xs hxs)

theorem extends_expr : Extends ExprSpan := extends_chain (extends_chain extends_atom)

/-! ## Instructions -/

theorem extends_assignment : Extends AssignmentSpan := by
  intro ts d rest hspan xs hxs
  cases hspan with
  | equal he => exact .equal (extends_expr he xs hxs)

theorem extends_declaration : Extends DeclarationSpan := by
  intro ts d rest hspan xs hxs
  cases hspan with
  | plain hd => exact .plain (extends_assignment hd xs hxs)
  | letWord hd => exact .letWord (extends_assignment hd xs hxs)

theorem extends_progression : Extends ProgressionSpan := by
  intro ts p rest hspan xs hxs
  cases hspan with
  | letWord hd => exact .letWord (extends_assignment hd xs hxs)
  | plain hd hdot => exact .plain (extends_assignment hd xs hxs) hdot
  | evaluate he => exact .evaluate (extends_expr he xs hxs)

theorem extends_arguments : Extends ArgumentsSpan := by
  intro ts as rest hspan xs hxs
  induction hspan with
  | nil => exact .nil
  | value hv has ih =>
    have hle := has.length_le
    exact .value (extends_value hv xs fun hms => hxs (eq_nil_of_length_le hle hms)) (ih hxs)
  | other hk _ ih => exact .other hk (ih hxs)

theorem extends_names : Extends (ManySpan (CommaSpan NameSpan)) :=
  extends_name.comma.many fun h => Nat.le_of_lt (CommaSpan.shorter NameSpan.shorter h)

theorem extends_collections : Extends (ManySpan (CommaSpan ExprSpan)) :=
  extends_expr.comma.many fun h => Nat.le_of_lt (CommaSpan.shorter ExprSpan.shorter h)

namespace Instruction

/-- A body ends with its brace, so anything may come behind it. -/
theorem bodySpan_append_of {b : List Instruction}
    (h : ∀ {ts rest}, ManySpan InstructionSpan ts b rest → ∀ xs, (rest = [] → EndsValue xs) →
      ManySpan InstructionSpan (ts ++ xs) b (rest ++ xs))
    {ts rest : List Terminal} (hb : BodySpan ts b rest) (xs : List Terminal) :
    BodySpan (ts ++ xs) b (rest ++ xs) := by
  cases hb with
  | braces his => exact .braces (h his xs (by simp))

mutual

theorem extends_span : ∀ (i : Instruction) {ts rest : List Terminal}, InstructionSpan ts i rest →
    ∀ xs, (rest = [] → EndsValue xs) → InstructionSpan (ts ++ xs) i (rest ++ xs)
  | create group arguments, ts, rest, h, xs, _ => by
    cases h with
    | create ha => exact .create (extends_arguments ha xs (by simp))
  | declare d, ts, rest, h, xs, hxs => by
    cases h with
    | declare hd => exact .declare (extends_assignment hd xs hxs)
  | branch condition body, ts, rest, h, xs, _ => by
    cases h with
    | branch hc hb =>
      have hbody := bodySpan_append_of (extends_spans body) hb xs
      exact .branch (extends_expr hc xs fun hms => absurd hms hb.ne_nil) hbody
  | foreach ns collections body, ts, rest, h, xs, _ => by
    cases h with
    | foreach hns hcs hb =>
      have hbody := bodySpan_append_of (extends_spans body) hb xs
      have hcollections := extends_collections hcs xs fun hks => absurd hks hb.ne_nil
      exact .foreach (extends_names hns xs (by simp)) hcollections hbody
  | loop start condition step body, ts, rest, h, xs, _ => by
    cases h with
    | loop hs hc hp hb =>
      have hbody := bodySpan_append_of (extends_spans body) hb xs
      have hstep := extends_progression hp xs fun hjs => absurd hjs hb.ne_nil
      have hcondition := extends_expr hc xs (by simp)
      exact .loop (extends_declaration hs xs (by simp)) hcondition hstep hbody

theorem extends_spans : ∀ (b : List Instruction) {ts rest : List Terminal},
    ManySpan InstructionSpan ts b rest →
    ∀ xs, (rest = [] → EndsValue xs) → ManySpan InstructionSpan (ts ++ xs) b (rest ++ xs)
  | [], ts, rest, h, xs, _ => by
    cases h
    exact .nil
  | i :: is, ts, rest, h, xs, hxs => by
    cases h with
    | cons hi his =>
      have hle := his.length_le fun _ h => Nat.le_of_lt h.shorter
      have hfirst := extends_span i hi xs fun hms => hxs (eq_nil_of_length_le hle hms)
      exact .cons hfirst (extends_spans is his xs hxs)

end

end Instruction

/-- **Anything may come behind a body.** -/
theorem BodySpan.append {ts rest : List Terminal} {b : List Instruction} (h : BodySpan ts b rest)
    (xs : List Terminal) : BodySpan (ts ++ xs) b (rest ++ xs) :=
  Instruction.bodySpan_append_of (Instruction.extends_spans b) h xs

theorem extends_instruction : Extends InstructionSpan :=
  fun _ i _ h => i.extends_span h

/-! ## Blocks -/

theorem extends_field : Extends FieldSpan := by
  intro ts f rest hspan xs _
  cases hspan
  exact .colon

theorem extends_parameter : Extends ParameterSpan := by
  intro ts p rest hspan xs _
  cases hspan
  exact .colon

theorem extends_fieldValue : Extends FieldValueSpan := by
  intro ts v rest hspan xs _
  cases hspan
  exact .equal

theorem extends_dataInstance : Extends DataInstanceSpan := by
  intro ts d rest hspan xs _
  cases hspan with
  | parens hvs =>
    exact .parens (extends_fieldValue.separated isMember_fieldValue.shorter hvs xs (by simp))

theorem extends_actions : Extends ActionsSpan := by
  intro ts as rest hspan xs hxs
  induction hspan with
  | nil => exact .nil
  | symbol _ ih => exact .symbol (ih hxs)
  | other hk _ ih => exact .other hk (ih hxs)

/-- **Anything may come behind a block.** -/
theorem BlockSpan.append {ts rest : List Terminal} {b : Block} (h : BlockSpan ts b rest)
    (xs : List Terminal) : BlockSpan (ts ++ xs) b (rest ++ xs) := by
  cases h with
  | data hfs => exact .data (extends_field.separated isMember_field.shorter hfs xs (by simp))
  | group hps hds =>
    have hparameters := extends_parameter.separated isMember_parameter.shorter hps xs (by simp)
    have hinstances := extends_dataInstance.separated isMember_dataInstance.shorter hds xs (by simp)
    exact .group hparameters hinstances
  | action hb => exact .action (hb.append xs)
  | run has hb => exact .run (extends_actions has xs (by simp)) (hb.append xs)

/-- **Anything may come behind blocks.** -/
theorem ManySpan.append_blocks {ts rest : List Terminal} {bs : List Block}
    (h : ManySpan BlockSpan ts bs rest) (xs : List Terminal) :
    ManySpan BlockSpan (ts ++ xs) bs (rest ++ xs) := by
  induction h with
  | nil => exact .nil
  | cons hb _ ih => exact .cons (hb.append xs) ih

end BlockLang
