import BlockLang.Proofs.Source.Derived

/-!
# Expressions that have a source text

An expression can be written exactly if some text denotes it. One way, the source text itself
denotes the expression: its terminals span the expression, and the parse recognises every span. The
other way, a text gives lone symbols, and what lone symbols derive can be written, point by point
and operator by operator. So nothing is refused that could have been written.
-/

namespace BlockLang

/-- Does the whole of a text, without aliases, denote the expression? -/
def Denotes (s : String) (e : Expr) : Prop :=
  ∃ ts c, tokenize .canonical s = .ok ts ∧ Parse.expression ⟨[], ts, 0⟩ = .ok e c ∧ c.rest = []

namespace Expr

/-- What a text denotes can be written. -/
theorem writable_of_denotes {e : Expr} {s : String} (h : Denotes s e) : e.Writable := by
  obtain ⟨ts, c, hts, hparse, -⟩ := h
  have hefree := (tokenRun_of_tokensFrom hts).endFree
  obtain ⟨-, hspan⟩ := Parse.recognizes_expression.sound (c := ⟨[], ts, 0⟩) hefree hparse
  exact (yields_expr hspan (loneSymbols_of_tokenize hts)).1

/-- **The source text of an expression denotes it.** -/
theorem denotes_of_source {e : Expr} {s : String} (h : e.source = .ok s) : Denotes s e := by
  obtain ⟨ts, hts, hterminals⟩ := (source_reads h).tokensFrom .start
  have hefree := (tokenRun_of_tokensFrom hts).endFree
  have hspan : ExprSpan (BlockLang.terminals ts) e [] := by
    rw [hterminals]
    simpa using spans ⟨s, h⟩ [] endsValue_nil
  obtain ⟨c, hparse, hrest⟩ :=
    Parse.recognizes_expression.complete (c := ⟨[], ts, 0⟩) hefree hspan noOperators_nil
  exact ⟨ts, c, hts, hparse, List.map_eq_nil_iff.mp hrest⟩

/-- An expression that is refused is refused for how it would have to be written. -/
theorem isAboutType_of_source_error {e : Expr} {err : WriteError} (h : e.source = .error err) :
    err.isAboutType = false := by
  induction e generalizing err with
  | value text =>
    rw [source, valueSource] at h
    split at h <;> cases h
    rfl
  | binary op lhs rhs ihl ihr =>
    -- what the operands are refused for is passed on
    have hoperands : (do return operationText op (← lhs.source) (← rhs.source)) = .error err →
        err.isAboutType = false := by
      intro hboth
      cases hl : lhs.source with
      | error e =>
        rw [hl] at hboth
        cases hboth
        exact ihl hl
      | ok l =>
        cases hr : rhs.source with
        | error e =>
          rw [hl, hr] at hboth
          cases hboth
          exact ihr hr
        | ok r =>
          rw [hl, hr] at hboth
          cases hboth
    rw [source] at h
    split at h
    · split at h
      · cases h
        rfl
      · exact hoperands h
    · split at h
      · cases h
        rfl
      · exact hoperands h

/-- **What can be written is what can be read.** An expression has a source text exactly if some
text denotes it, and then the source text is one that does. Every other expression is refused, and
not because of what it is made of. -/
theorem source_iff_denotes (e : Expr) :
    ((∃ t, e.source = .ok t) ↔ ∃ s, Denotes s e) ∧
      (∀ t, e.source = .ok t → Denotes t e) ∧
      ((∀ s, ¬ Denotes s e) → ∃ err, e.source = .error err ∧ err.isAboutType = false) := by
  have hiff : (∃ t, e.source = .ok t) ↔ ∃ s, Denotes s e :=
    ⟨fun ⟨t, ht⟩ => ⟨t, denotes_of_source ht⟩, fun ⟨_, hs⟩ => writable_of_denotes hs⟩
  refine ⟨hiff, fun t => denotes_of_source, fun hnone => ?_⟩
  cases hs : e.source with
  | ok t => exact absurd (denotes_of_source hs) (hnone t)
  | error err => exact ⟨err, rfl, isAboutType_of_source_error hs⟩

/-- A value with two points is written with one of them set apart. -/
example : (value "1.2.3").source = .ok "1.2 . 3" := by decide +kernel

end Expr

end BlockLang
