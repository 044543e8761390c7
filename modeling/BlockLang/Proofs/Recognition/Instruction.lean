import BlockLang.Proofs.Recognition.Expr
import BlockLang.Grammar.Instruction

/-!
# Recognition of instructions

A body may open as many further bodies as it has room for, so it recognises the bodies that are no
deeper than that. Its instructions recognise what their own bodies leave them, whatever the parse
of these bodies is.
-/

namespace BlockLang.Parse

/-! ## Assignments -/

/-- An assignment without its word. -/
def assignment : Parse Declaration := do
  let name ← expectSymbol .missingName "Expected name of variable to declare."
  let _ ← expect (.delimiter .equal) "before declaration value"
  return ⟨name, ← expression⟩

theorem recognizes_assignment : Recognizes assignment AssignmentSpan NoOperators := by
  refine ((Recognizes.expectSymbol _ _).bind (fun name =>
    (recognizes_expression.map (Declaration.mk name)).expect (by simp) _)
    fun _ _ => trivial).congr fun ts d rest => ?_
  constructor
  · rintro ⟨name, ms, ⟨⟩, us, rfl, e, h, rfl⟩
    exact .equal h
  · rintro ⟨h⟩
    exact ⟨_, _, .symbol, _, rfl, _, h, rfl⟩

/-- A declaration may leave its word out. -/
theorem declaration_eq :
    declaration = sees (.keyword .letWord) >>= fun b =>
      if b = true then skip >>= fun _ => assignment else assignment :=
  rfl

theorem recognizes_declaration : Recognizes declaration DeclarationSpan NoOperators := by
  rw [declaration_eq]
  refine (recognizes_assignment.skip.sees (k := .keyword .letWord) (by simp)
    recognizes_assignment).congr fun ts d rest => ?_
  constructor
  · rintro (⟨⟨us, rfl⟩, h⟩ | ⟨-, h⟩)
    · exact .letWord h
    · exact .plain h
  · rintro (h | h)
    · obtain ⟨n, more, rfl⟩ := h.symbol
      exact .inr ⟨by simp, h⟩
    · exact .inl ⟨⟨_, rfl⟩, h⟩

/-! ## The last clause of a loop header -/

/-- The last clause of a loop header without the word. -/
def bareProgression : Parse Progression := do
  let first ← valueText
  match ← peek with
  | some t =>
    if t.kind = .delimiter .equal then
      if first.toList.contains '.' then
        throw (.about .missingName s!"Expected name of variable to declare. Got '{first}'." t)
      skip
      return .assign ⟨first, ← expression⟩
    else return .evaluate (← expressionFrom (some (.value first)))
  | none => return .evaluate (← expressionFrom (some (.value first)))

theorem progression_eq :
    progression = sees (.keyword .letWord) >>= fun b =>
      if b = true then (do return .assign (← declaration)) else bareProgression :=
  rfl

section

variable {rd ts : List Token} {t : Token} {d : Nat} {c c₁ : Cursor} {first : String}

/-- A value that is there is read, up to the tokens behind it. -/
theorem valueText_of_span {ms : List Terminal} (he : EndFree c.rest)
    (h : ValueSpan (terminals c.rest) first ms) :
    ∃ c₁, valueText c = .ok first c₁ ∧ terminals c₁.rest = ms ∧ EndFree c₁.rest := by
  obtain ⟨c₁, hv, hrest⟩ := recognizes_valueText.complete he h trivial
  obtain ⟨hsuf, -⟩ := recognizes_valueText.sound he hv
  exact ⟨c₁, hv, hrest, he.of_suffix hsuf⟩

/-- A cursor in front of a mark has a token of its kind there. -/
theorem exists_token_of_startsWith {k : Kind} (hk : k ≠ .symbol)
    (h : StartsWith k (terminals c₁.rest)) :
    ∃ rd t ts d, c₁ = ⟨rd, t :: ts, d⟩ ∧ t.kind = k := by
  obtain ⟨rd, ts, d⟩ := c₁
  cases ts with
  | nil => simp at h
  | cons t ts =>
    rw [terminals_cons, startsWith_cons, Token.terminal_eq_mark hk] at h
    exact ⟨rd, t, ts, d, rfl, h⟩

/-- Behind its first value a clause that goes on with `=` is an assignment. -/
theorem bareProgression_of_equal (h : valueText c = .ok first ⟨rd, t :: ts, d⟩)
    (ht : t.kind = .delimiter .equal) (hdot : '.' ∉ first.toList) :
    bareProgression c = (expression >>= fun e => pure (.assign ⟨first, e⟩) : Parse Progression)
      ⟨t :: rd, ts, d⟩ := by
  have he : t.kind ≠ .endOfInput := by simp [ht]
  have hno : ¬ first.toList.contains '.' = true := by simpa using hdot
  rw [bareProgression, bind_of_ok h]
  simp only [peek_bind_apply, Cursor.peek_cons he, if_pos ht, if_neg hno, skip_bind_apply,
    Cursor.advance_cons he]

/-- A value that holds a point is no name. -/
theorem bareProgression_of_point (h : valueText c = .ok first ⟨rd, t :: ts, d⟩)
    (ht : t.kind = .delimiter .equal) (hdot : '.' ∈ first.toList) :
    bareProgression c = .error
      (.about .missingName s!"Expected name of variable to declare. Got '{first}'." t)
      ⟨rd, t :: ts, d⟩ := by
  have he : t.kind ≠ .endOfInput := by simp [ht]
  have hyes : first.toList.contains '.' = true := by simpa using hdot
  rw [bareProgression, bind_of_ok h]
  simp only [peek_bind_apply, Cursor.peek_cons he, if_pos ht, if_pos hyes]
  exact bind_of_error rfl _

/-- Behind its first value any other clause is an expression. -/
theorem bareProgression_of_ne (h : valueText c = .ok first c₁)
    (hne : ¬ StartsWith (.delimiter .equal) (terminals c₁.rest)) (he : EndFree c₁.rest) :
    bareProgression c = (expression >>= fun e => pure (.evaluate e) : Parse Progression) c := by
  rw [expression_eq, bind_assoc, bind_of_ok h, bareProgression, bind_of_ok h]
  obtain ⟨rd, ts, d⟩ := c₁
  cases ts with
  | nil => rfl
  | cons t ts =>
    rw [terminals_cons, startsWith_cons, Token.terminal_eq_mark (by simp)] at hne
    simp only [peek_bind_apply, Cursor.peek_cons (endFree_cons.mp he).1, if_neg hne]

end

/-- An assignment to a name without a point, or an expression. -/
inductive BareProgressionSpan : Span Progression
  | plain {ts rest d} : AssignmentSpan ts d rest → '.' ∉ d.name.toList →
      BareProgressionSpan ts (.assign d) rest
  | evaluate {ts rest e} : ExprSpan ts e rest → BareProgressionSpan ts (.evaluate e) rest

section

variable {c c' : Cursor}

/-- **What is read without the word** is what stands there. -/
theorem bareProgression_sound {p : Progression} (he : EndFree c.rest)
    (h : bareProgression c = .ok p c') :
    c'.rest <:+ c.rest ∧ BareProgressionSpan (terminals c.rest) p (terminals c'.rest) := by
  cases hv : valueText c with
  | error e c₁ =>
    rw [bareProgression, bind_of_error hv] at h
    cases h
  | ok first c₁ =>
    obtain ⟨hsuf, hspan⟩ := recognizes_valueText.sound he hv
    have he₁ := he.of_suffix hsuf
    by_cases heq : StartsWith (.delimiter .equal) (terminals c₁.rest)
    · -- the value is the name of an assignment, unless it holds a point
      obtain ⟨rd, t, ts, d, rfl, ht⟩ := exists_token_of_startsWith (by simp) heq
      by_cases hdot : '.' ∈ first.toList
      · rw [bareProgression_of_point hv ht hdot] at h
        cases h
      · rw [bareProgression_of_equal hv ht hdot] at h
        obtain ⟨e, c₂, h₁, h₂⟩ := bind_eq_ok.mp h
        cases h₂
        obtain ⟨hsuf', hexpr⟩ := recognizes_expression.sound (endFree_cons.mp he₁).2 h₁
        refine ⟨(hsuf'.trans (List.suffix_cons _ _)).trans hsuf, .plain ?_ hdot⟩
        rw [valueSpan_of_no_point hspan hdot, terminals_cons,
          (Token.terminal_eq_mark (by simp)).mpr ht]
        exact .equal hexpr
    · -- the value is the first of an expression, which is read from the front again
      rw [bareProgression_of_ne hv heq he₁] at h
      obtain ⟨e, c₂, h₁, h₂⟩ := bind_eq_ok.mp h
      cases h₂
      obtain ⟨hsuf', hexpr⟩ := recognizes_expression.sound he h₁
      exact ⟨hsuf', .evaluate hexpr⟩

/-- An assignment to a name without a point is read as one. -/
theorem bareProgression_of_assignment {a : Declaration} {rest : List Terminal}
    (he : EndFree c.rest) (h : AssignmentSpan (terminals c.rest) a rest)
    (hdot : '.' ∉ a.name.toList) (hrest : NoOperators rest) :
    ∃ c', bareProgression c = .ok (.assign a) c' ∧ terminals c'.rest = rest := by
  generalize hts : terminals c.rest = ts at h
  cases h with
  | @equal us _ s e hexpr =>
    have hname : ValueSpan (terminals c.rest) s (.mark (.delimiter .equal) :: us) :=
      hts ▸ .name (by simp)
    obtain ⟨c₁, hv, hbehind, he₁⟩ := valueText_of_span he hname
    obtain ⟨rd, t, ts, d, rfl, ht⟩ := exists_token_of_startsWith (by simp) ⟨us, hbehind⟩
    rw [terminals_cons] at hbehind
    injection hbehind with _ hbehind
    subst hbehind
    obtain ⟨c₂, hread, hleft⟩ := recognizes_expression.complete (c := ⟨t :: rd, ts, d⟩)
      (endFree_cons.mp he₁).2 hexpr hrest
    refine ⟨c₂, ?_, hleft⟩
    rw [bareProgression_of_equal hv ht hdot, bind_of_ok hread, pure_apply]

/-- An expression is read as one, unless `=` follows: its first value would be taken for a name. -/
theorem bareProgression_of_expression {e : Expr} {rest : List Terminal} (he : EndFree c.rest)
    (h : ExprSpan (terminals c.rest) e rest) (hrest : NoOperators rest)
    (hequal : ¬ StartsWith (.delimiter .equal) rest) :
    ∃ c', bareProgression c = .ok (.evaluate e) c' ∧ terminals c'.rest = rest := by
  obtain ⟨s, ms, hspan, hms⟩ := ExprSpan.afterFirst h
  obtain ⟨c₁, hv, rfl, he₁⟩ := valueText_of_span he hspan
  -- behind the first value comes an operator, or what follows the expression
  have hne : ¬ StartsWith (.delimiter .equal) (terminals c₁.rest) := by
    rcases hms with hms | ⟨op, more, hms⟩
    · rw [hms]
      exact hequal
    · rw [hms]
      simp
  obtain ⟨c₂, hread, hleft⟩ := recognizes_expression.complete he h hrest
  refine ⟨c₂, ?_, hleft⟩
  rw [bareProgression_of_ne hv hne he₁, bind_of_ok hread, pure_apply]

end

/-- **The first value is read before the two are told apart**, so no `=` may follow the clause. -/
theorem recognizes_bareProgression :
    Recognizes bareProgression BareProgressionSpan
      (fun rest => NoOperators rest ∧ ¬ StartsWith (.delimiter .equal) rest) where
  sound := bareProgression_sound
  complete := by
    intro c p rest he h hrest
    cases h with
    | plain h hdot => exact bareProgression_of_assignment he h hdot hrest.1
    | evaluate h => exact bareProgression_of_expression he h hrest.1 hrest.2

theorem recognizes_progression :
    Recognizes progression ProgressionSpan
      (fun rest => NoOperators rest ∧ ¬ StartsWith (.delimiter .equal) rest) := by
  have hlet := (recognizes_declaration.map Progression.assign).follow
    (G := fun rest => NoOperators rest ∧ ¬ StartsWith (.delimiter .equal) rest) fun _ h => h.1
  rw [progression_eq]
  refine (hlet.sees (k := .keyword .letWord) (by simp) recognizes_bareProgression).congr
    fun ts p rest => ?_
  constructor
  · rintro (⟨⟨us, rfl⟩, d, h, rfl⟩ | ⟨-, h⟩)
    · cases h with
      | plain h => cases h
      | letWord h => exact .letWord h
    · cases h with
      | plain h hdot => exact .plain h hdot
      | evaluate h => exact .evaluate h
  · rintro (h | ⟨h, hdot⟩ | h)
    · exact .inl ⟨⟨_, rfl⟩, _, .letWord h, rfl⟩
    · obtain ⟨n, more, rfl⟩ := h.symbol
      exact .inr ⟨by simp, .plain h hdot⟩
    · obtain ⟨n, more, rfl⟩ := ExprSpan.symbol h
      exact .inr ⟨by simp, .evaluate h⟩

/-! ## Creations -/

/-- A value, or a token that is passed over. -/
inductive ArgumentSpan : Span (Option String)
  | value {ts rest s} : ValueSpan ts s rest → ArgumentSpan ts (some s) rest
  | other {rest k} : k ≠ .delimiter .rightParen → ArgumentSpan (.mark k :: rest) none rest

/-- The arguments of a creation are the values among its items. -/
theorem argumentsSpan_iff {ts rest : List Terminal} {as : List String} :
    ArgumentsSpan ts as rest ↔
      ∃ found, ManySpan ArgumentSpan ts found rest ∧ as = found.filterMap id := by
  constructor
  · intro h
    induction h with
    | nil => exact ⟨[], .nil, rfl⟩
    | value hv _ ih =>
      obtain ⟨found, hfound, rfl⟩ := ih
      exact ⟨some _ :: found, .cons (.value hv) hfound, rfl⟩
    | other hk _ ih =>
      obtain ⟨found, hfound, rfl⟩ := ih
      exact ⟨none :: found, .cons (.other hk) hfound, rfl⟩
  · rintro ⟨found, h, rfl⟩
    induction h with
    | nil => exact .nil
    | cons h _ ih =>
      cases h with
      | value hv => exact .value hv ih
      | other hk => exact .other hk ih

/-- What one argument spans, told by its first token. -/
def argumentAt : Terminal → Span (Option (Option String))
  | .symbol _, ts, o, rest => ∃ s, ValueSpan ts s rest ∧ o = some (some s)
  | .mark _, ts, o, rest => o = some none ∧ rest = ts.tail

theorem recognizes_argumentStep :
    Recognizes argumentStep (UntilSpan (StartsWith (.delimiter .rightParen)) ArgumentSpan)
      Anything := by
  have hat : ∀ t : Token, Recognizes
      (if t.kind = .symbol then valueText >>= fun s => pure (some (some s))
        else skip >>= fun _ => pure (some none))
      (argumentAt t.terminal) Anything := by
    intro t
    by_cases ht : t.kind = .symbol
    · rw [if_pos ht, Token.terminal_of_symbol ht]
      exact recognizes_valueText.map fun s => some (some s)
    · rw [if_neg ht, Token.terminal_of_ne ht]
      exact (Recognizes.pure _).skip
  refine ((Recognizes.pure none).sees (k := .delimiter .rightParen) (by simp)
    (Recognizes.requireMore "group creation parameters" hat)).congr fun ts o rest => ?_
  constructor
  · rintro (⟨hs, rfl, rfl⟩ | ⟨hs, w, us, rfl, h⟩)
    · exact .stop hs
    · cases w with
      | symbol n =>
        obtain ⟨s, hv, rfl⟩ := h
        exact .item hs (.value hv)
      | mark k =>
        obtain ⟨rfl, rfl⟩ := h
        exact .item hs (.other (by simpa using hs))
  · rintro (hs | ⟨hs, hv | hk⟩)
    · exact .inl ⟨hs, rfl, rfl⟩
    · obtain ⟨n, more, rfl⟩ := (valueSpan_cons hv).1
      exact .inr ⟨hs, _, _, rfl, _, hv, rfl⟩
    · exact .inr ⟨hs, _, _, rfl, rfl, rfl⟩

theorem recognizes_arguments :
    Recognizes (many argumentStep)
      (fun ts found rest => ManySpan ArgumentSpan ts found rest ∧
        StartsWith (.delimiter .rightParen) rest) Anything := by
  refine recognizes_argumentStep.manyUntil ?_ fun _ _ => trivial
  rintro ts a rest (h | h)
  · obtain ⟨⟨n, more, rfl⟩, hlt⟩ := valueSpan_cons h
    exact ⟨by simp, trivial, hlt⟩
  · exact ⟨by simpa using h, trivial, by simp⟩

/-- `create NAME(value ...)`, whatever its first token is. -/
theorem recognizes_creation :
    Recognizes creation
      (fun ts i rest => ∃ g as us, ts.tail = .symbol g :: .mark (.delimiter .leftParen) :: us ∧
        ArgumentsSpan us as (.mark (.delimiter .rightParen) :: rest) ∧ i = .create g as)
      Anything := by
  refine (Recognizes.skip ((Recognizes.expectSymbol _ _).bind (fun group =>
    (recognizes_arguments.upTo (fun found =>
      Recognizes.pure (Instruction.create group (found.filterMap id)))).expect (by simp) _)
    fun _ _ => trivial)).congr fun ts i rest => ?_
  constructor
  · rintro ⟨g, ms, hg, us, rfl, found, _, h, rfl, rfl⟩
    generalize hts : ts.tail = ws at hg
    cases hg
    exact ⟨g, _, us, rfl, argumentsSpan_iff.mpr ⟨found, h, rfl⟩, rfl⟩
  · rintro ⟨g, as, us, hts, h, rfl⟩
    obtain ⟨found, hfound, rfl⟩ := argumentsSpan_iff.mp h
    rw [hts]
    exact ⟨g, _, .symbol, us, rfl, found, _, hfound, rfl, rfl⟩

/-! ## Loops over collections -/

theorem recognizes_loopNameStep :
    Recognizes loopNameStep (UntilSpan (StartsWith (.keyword .inWord)) (CommaSpan NameSpan))
      Anything := by
  have hname := (Recognizes.expectSymbol .missingName "Expected a value name in foreach.").skipComma
    (by rintro ts a rest ⟨⟩; simp)
  have hitem := Recognizes.item (k := .keyword .inWord) (by simp) "foreach values" hname
    (by rintro ts a rest (⟨⟨⟩⟩ | h) <;> exact ⟨_, _, rfl, by simp⟩)
  simpa only [loopNameStep, bind_assoc] using hitem

theorem recognizes_loopNames :
    Recognizes (many loopNameStep)
      (fun ts ns rest => ManySpan (CommaSpan NameSpan) ts ns rest ∧
        StartsWith (.keyword .inWord) rest) Anything := by
  refine recognizes_loopNameStep.manyUntil ?_ fun _ _ => trivial
  rintro ts a rest (⟨⟨⟩⟩ | ⟨⟨⟩⟩)
  · exact ⟨by simp, trivial, by simp⟩
  · exact ⟨by simp, trivial, by simp only [List.length_cons]; omega⟩

/-- A collection starts with a symbol, or with the comma in front of it. -/
theorem collection_front {ts rest : List Terminal} {e : Expr} (h : CommaSpan ExprSpan ts e rest) :
    ∃ w us, ts = w :: us ∧ w ≠ .mark (.delimiter .leftBrace) ∧ NoOperators (w :: us) := by
  rcases h with h | h
  · obtain ⟨n, more, rfl⟩ := ExprSpan.symbol h
    exact ⟨_, _, rfl, by simp, by simp⟩
  · exact ⟨_, _, rfl, by simp, by simp⟩

theorem recognizes_collectionStep :
    Recognizes collectionStep (UntilSpan (StartsWith (.delimiter .leftBrace)) (CommaSpan ExprSpan))
      NoOperators := by
  have hcollection := recognizes_expression.skipComma (by
    intro ts e rest h
    obtain ⟨n, more, rfl⟩ := ExprSpan.symbol h
    simp)
  have hitem := Recognizes.item (k := .delimiter .leftBrace) (by simp) "foreach collections"
    hcollection fun h => by
      obtain ⟨w, us, rfl, hw, -⟩ := collection_front h
      exact ⟨w, us, rfl, hw⟩
  simpa only [collectionStep, bind_assoc] using hitem

theorem recognizes_collections :
    Recognizes (many collectionStep)
      (fun ts cs rest => ManySpan (CommaSpan ExprSpan) ts cs rest ∧
        StartsWith (.delimiter .leftBrace) rest) Anything := by
  refine recognizes_collectionStep.manyUntil ?_ ?_
  · intro ts e rest h
    have hlt := CommaSpan.shorter ExprSpan.shorter h
    obtain ⟨w, us, rfl, hw, hno⟩ := collection_front h
    exact ⟨by simpa using hw, hno, hlt⟩
  · rintro ts ⟨us, rfl⟩ -
    simp

/-! ## Instructions -/

section

variable {inner : String → Parse (List Instruction)} {room : Nat}

/-- A body that is no deeper than there is room. -/
def RoomSpan (room : Nat) : Span (List Instruction) :=
  fun ts b rest => BodySpan ts b rest ∧ Instruction.bodyDepth b ≤ room

/-- `if expression body`, whatever its first token is. -/
theorem recognizes_branch
    (hinner : ∀ what, Recognizes (inner what) (RoomSpan room) Anything) :
    Recognizes (branch inner)
      (fun ts i rest => ∃ c ms b, ExprSpan ts.tail c ms ∧ RoomSpan room ms b rest ∧
        i = .branch c b) Anything := by
  refine (Recognizes.skip (recognizes_expression.bind
    (fun c => (hinner "if body").map (Instruction.branch c)) ?_)).congr fun ts i rest => ?_
  · rintro c i ms rest ⟨b, ⟨⟨h⟩, -⟩, -⟩ -
    simp
  · constructor
    · rintro ⟨c, ms, hc, b, hb, rfl⟩
      exact ⟨c, ms, b, hc, hb, rfl⟩
    · rintro ⟨c, ms, b, hc, hb, rfl⟩
      exact ⟨c, ms, hc, b, hb, rfl⟩

/-- `for declaration; expression; progression body`, whatever its first token is. -/
theorem recognizes_loop
    (hinner : ∀ what, Recognizes (inner what) (RoomSpan room) Anything) :
    Recognizes (loop inner)
      (fun ts i rest => ∃ s ms c ks p js b,
        DeclarationSpan ts.tail s (.mark (.delimiter .semicolon) :: ms) ∧
        ExprSpan ms c (.mark (.delimiter .semicolon) :: ks) ∧ ProgressionSpan ks p js ∧
        RoomSpan room js b rest ∧ i = .loop s c p b) Anything := by
  have hstep := fun s c => recognizes_progression.bind
    (fun p => (hinner "for body").map (Instruction.loop s c p)) (by
      rintro p i ms rest ⟨b, ⟨⟨h⟩, -⟩, -⟩ -
      simp)
  have hcond := fun s => recognizes_expression.bind
    (fun c => (hstep s c).expect (k := .delimiter .semicolon) (by simp) "after for condition") (by
      rintro c i ms rest ⟨ks, rfl, -⟩ -
      simp)
  refine (Recognizes.skip (recognizes_declaration.bind
    (fun s => (hcond s).expect (k := .delimiter .semicolon) (by simp) "after for declaration")
    ?_)).congr fun ts i rest => ?_
  · rintro s i ms rest ⟨ks, rfl, -⟩ -
    simp
  · constructor
    · rintro ⟨s, _, hs, ms, rfl, c, _, hc, ks, rfl, p, js, hp, b, hb, rfl⟩
      exact ⟨s, ms, c, ks, p, js, b, hs, hc, hp, hb, rfl⟩
    · rintro ⟨s, ms, c, ks, p, js, b, hs, hc, hp, hb, rfl⟩
      exact ⟨s, _, hs, ms, rfl, c, _, hc, ks, rfl, p, js, hp, b, hb, rfl⟩

/-- A loop over collections, behind the check that a symbol follows its word. -/
def foreachClauses (inner : String → Parse (List Instruction)) : Parse Instruction := do
  let names ← many loopNameStep
  skip
  let collections ← many collectionStep
  return .foreach names collections (← inner "foreach body")

/-- The clauses of a loop over collections, with bodies as `B` has them. -/
def ClausesSpan (B : Span (List Instruction)) : Span Instruction := fun ts i rest =>
  ∃ ns ms, ManySpan (CommaSpan NameSpan) ts ns (.mark (.keyword .inWord) :: ms) ∧
    ∃ cs ks, ManySpan (CommaSpan ExprSpan) ms cs ks ∧ ∃ b, B ks b rest ∧ i = .foreach ns cs b

theorem foreach_eq (inner : String → Parse (List Instruction)) :
    foreach inner = skip >>= fun _ => requireMore "foreach" >>= fun t =>
      if t.kind = .symbol then foreachClauses inner
      else throw (.about .unexpectedToken s!"Unexpected token in foreach: {t.value}." t) := by
  unfold foreach
  refine congrArg (skip >>= ·) (funext fun _ => congrArg (requireMore "foreach" >>= ·)
    (funext fun t => ?_))
  by_cases ht : t.kind = .symbol
  · rw [if_neg (not_not_intro ht), if_pos ht]
    rfl
  · rw [if_pos ht, if_neg ht]
    rfl

theorem recognizes_foreachClauses
    (hinner : ∀ what, Recognizes (inner what) (RoomSpan room) Anything) :
    Recognizes (foreachClauses inner) (ClausesSpan (RoomSpan room)) Anything := by
  refine (recognizes_loopNames.upTo fun ns => recognizes_collections.bind
    (fun cs => (hinner "foreach body").map (Instruction.foreach ns cs))
    fun _ _ => trivial).congr fun ts i rest => ?_
  constructor
  · rintro ⟨ns, ms, hn, cs, ks, ⟨hc, -⟩, hb⟩
    exact ⟨ns, ms, hn, cs, ks, hc, hb⟩
  · rintro ⟨ns, ms, hn, cs, ks, hc, b, ⟨⟨hb⟩, hd⟩, rfl⟩
    exact ⟨ns, ms, hn, cs, _, ⟨hc, _, rfl⟩, b, ⟨.braces hb, hd⟩, rfl⟩

/-- `foreach NAME, ... in expression, ... body`, whatever its first token is. -/
theorem recognizes_foreach
    (hinner : ∀ what, Recognizes (inner what) (RoomSpan room) Anything) :
    Recognizes (foreach inner)
      (fun ts i rest => ∃ n us ns ms cs ks b, ts.tail = .symbol n :: us ∧
        ManySpan (CommaSpan NameSpan) us ns (.mark (.keyword .inWord) :: ms) ∧
        ManySpan (CommaSpan ExprSpan) ms cs ks ∧ RoomSpan room ks b rest ∧
        i = .foreach (n :: ns) cs b) Anything := by
  have hat : ∀ t : Token, Recognizes
      (if t.kind = .symbol then foreachClauses inner
        else throw (.about .unexpectedToken s!"Unexpected token in foreach: {t.value}." t))
      (fun ts i rest => (∃ n, t.terminal = .symbol n) ∧ ClausesSpan (RoomSpan room) ts i rest)
      Anything := by
    intro t
    by_cases ht : t.kind = .symbol
    · rw [if_pos ht, Token.terminal_of_symbol ht]
      exact (recognizes_foreachClauses hinner).congr
        fun ts i rest => ⟨fun h => ⟨⟨_, rfl⟩, h⟩, And.right⟩
    · rw [if_neg ht, Token.terminal_of_ne ht]
      exact (recognizes_throw _).congr fun ts i rest => by simp
  rw [foreach_eq]
  refine (Recognizes.skip (Recognizes.requireMore
    (S := fun w ts i rest => (∃ n, w = .symbol n) ∧ ClausesSpan (RoomSpan room) ts i rest)
    "foreach" hat)).congr fun ts i rest => ?_
  constructor
  · rintro ⟨w, us, hts, ⟨n, rfl⟩, ns, ms, hn, cs, ks, hc, b, hb, rfl⟩
    -- the symbol that was looked at is the first of the names
    rw [hts] at hn
    obtain ⟨ns', rfl, hns⟩ := names_of_symbol hn
    exact ⟨n, us, ns', ms, cs, ks, b, hts, hns, hc, hb, rfl⟩
  · rintro ⟨n, us, ns, ms, cs, ks, b, hts, hn, hc, hb, rfl⟩
    rw [hts]
    exact ⟨_, us, rfl, ⟨n, rfl⟩, n :: ns, ms, .cons (.plain .symbol) hn, cs, ks, hc, b, hb, rfl⟩

/-! ### The choice between them -/

/-- What an instruction spans, told by its first token. -/
def instructionAt (room : Nat) : Terminal → Span Instruction
  | .mark (.keyword .create), ts, i, rest =>
    ∃ g as us, ts.tail = .symbol g :: .mark (.delimiter .leftParen) :: us ∧
      ArgumentsSpan us as (.mark (.delimiter .rightParen) :: rest) ∧ i = .create g as
  | .mark (.keyword .ifWord), ts, i, rest =>
    ∃ c ms b, ExprSpan ts.tail c ms ∧ RoomSpan room ms b rest ∧ i = .branch c b
  | .mark (.keyword .foreach), ts, i, rest =>
    ∃ n us ns ms cs ks b, ts.tail = .symbol n :: us ∧
      ManySpan (CommaSpan NameSpan) us ns (.mark (.keyword .inWord) :: ms) ∧
      ManySpan (CommaSpan ExprSpan) ms cs ks ∧ RoomSpan room ks b rest ∧ i = .foreach (n :: ns) cs b
  | .mark (.keyword .forWord), ts, i, rest =>
    ∃ s ms c ks p js b, DeclarationSpan ts.tail s (.mark (.delimiter .semicolon) :: ms) ∧
      ExprSpan ms c (.mark (.delimiter .semicolon) :: ks) ∧ ProgressionSpan ks p js ∧
      RoomSpan room js b rest ∧ i = .loop s c p b
  | .mark (.keyword .letWord), ts, i, rest => ∃ d, DeclarationSpan ts d rest ∧ i = .declare d
  | _, _, _, _ => False

/-- **An instruction** is recognised if its bodies are. -/
theorem recognizes_instructionWith
    (hinner : ∀ what, Recognizes (inner what) (RoomSpan room) Anything) :
    Recognizes (instructionWith inner)
      (fun ts i rest => InstructionSpan ts i rest ∧ i.depth ≤ room) NoOperators := by
  refine (Recognizes.requireMore (S := instructionAt room) "instruction" fun t => ?_).congr
    fun ts i rest => ?_
  · cases hk : t.kind with
    | keyword k =>
      rw [Token.terminal_of_ne (by simp [hk]), hk]
      cases k with
      | create => exact recognizes_creation.follow fun _ _ => trivial
      | ifWord => exact (recognizes_branch hinner).follow fun _ _ => trivial
      | foreach => exact (recognizes_foreach hinner).follow fun _ _ => trivial
      | forWord => exact (recognizes_loop hinner).follow fun _ _ => trivial
      | letWord => exact recognizes_declaration.map Instruction.declare
      | _ => exact recognizes_throw _
    | symbol =>
      rw [Token.terminal_of_symbol hk]
      exact recognizes_throw _
    | _ =>
      rw [Token.terminal_of_ne (by simp [hk]), hk]
      exact recognizes_throw _
  · constructor
    · rintro ⟨w, us, rfl, h⟩
      unfold instructionAt at h
      split at h
      · obtain ⟨g, as, vs, rfl, ha, rfl⟩ := h
        exact ⟨.create ha, Nat.zero_le _⟩
      · obtain ⟨c, ms, b, hc, ⟨hb, hd⟩, rfl⟩ := h
        exact ⟨.branch hc hb, hd⟩
      · obtain ⟨n, vs, ns, ms, cs, ks, b, rfl, hn, hc, ⟨hb, hd⟩, rfl⟩ := h
        exact ⟨.foreach hn hc hb, hd⟩
      · obtain ⟨s, ms, c, ks, p, js, b, hs, hc, hp, ⟨hb, hd⟩, rfl⟩ := h
        exact ⟨.loop hs hc hp hb, hd⟩
      · obtain ⟨d, h | h, rfl⟩ := h
        · cases h
        · exact ⟨.declare h, Nat.zero_le _⟩
      · exact h.elim
    · rintro ⟨h, hd⟩
      cases h with
      | create ha => exact ⟨_, _, rfl, _, _, _, rfl, ha, rfl⟩
      | declare ha => exact ⟨_, _, rfl, _, .letWord ha, rfl⟩
      | branch hc hb => exact ⟨_, _, rfl, _, _, _, hc, ⟨hb, hd⟩, rfl⟩
      | foreach hn hc hb => exact ⟨_, _, rfl, _, _, _, _, _, _, _, rfl, hn, hc, ⟨hb, hd⟩, rfl⟩
      | loop hs hc hp hb =>
        exact ⟨_, _, rfl, _, _, _, _, _, _, _, hs, hc, hp, ⟨hb, hd⟩, rfl⟩

/-! ### Bodies -/

theorem recognizes_bodyStep (what : String)
    (hinner : ∀ what, Recognizes (inner what) (RoomSpan room) Anything) :
    Recognizes (bodyStep inner what)
      (UntilSpan (StartsWith (.delimiter .rightBrace))
        (fun ts i rest => InstructionSpan ts i rest ∧ i.depth ≤ room)) NoOperators := by
  refine Recognizes.item (k := .delimiter .rightBrace) (by simp) what
    (recognizes_instructionWith hinner) ?_
  rintro ts i rest ⟨h, -⟩
  obtain ⟨k, us, rfl⟩ := h.keyword
  exact ⟨_, us, rfl, by simp⟩

/-- What a body holds when its own bodies have the room `room`. -/
theorem recognizes_instructions (what : String)
    (hinner : ∀ what, Recognizes (inner what) (RoomSpan room) Anything) :
    Recognizes (many (bodyStep inner what))
      (fun ts b rest => ManySpan (fun ts i rest => InstructionSpan ts i rest ∧ i.depth ≤ room)
        ts b rest ∧ StartsWith (.delimiter .rightBrace) rest) Anything := by
  refine (recognizes_bodyStep what hinner).manyUntil ?_ ?_
  · rintro ts i rest ⟨h, -⟩
    have hlt := h.shorter
    obtain ⟨k, us, rfl⟩ := h.keyword
    exact ⟨by simp, by simp, hlt⟩
  · rintro ts ⟨us, rfl⟩ -
    simp

end

/-- **A body** recognises the bodies it has room for. -/
theorem recognizes_bodyWithin (limit : Int) (room : Nat) (what : String) :
    Recognizes (bodyWithin limit room what) (RoomSpan room) Anything := by
  induction room generalizing what with
  | zero =>
    unfold bodyWithin
    refine ⟨?_, ?_⟩
    · intro c c' b he h
      obtain ⟨brace, c₁, -, h₂⟩ := bind_eq_ok.mp h
      obtain ⟨c₂, h₃, -⟩ := deeper_eq_ok.mp h₂
      cases h₃
    · rintro c b rest - ⟨-, hb⟩ -
      -- there is no room, and every body takes some
      have := Instruction.bodyDepth_pos b
      omega
  | succ room ih =>
    unfold bodyWithin
    refine (((recognizes_instructions what ih).deeper.upTo
      fun b => Recognizes.pure b).expect (by simp) _).congr fun ts b rest => ?_
    constructor
    · rintro ⟨ms, rfl, b', _, h, rfl, rfl⟩
      obtain ⟨h, hd⟩ := manySpan_and.mp h
      exact ⟨.braces h, Instruction.bodyDepth_le_succ.mpr hd⟩
    · rintro ⟨⟨h⟩, hd⟩
      exact ⟨_, rfl, b, _, manySpan_and.mpr ⟨h, Instruction.bodyDepth_le_succ.mp hd⟩, rfl, rfl⟩

theorem recognizes_body (limit : Int) (what : String) :
    Recognizes (body limit what) (RoomSpan limit.toNat) Anything :=
  recognizes_bodyWithin limit limit.toNat what

end BlockLang.Parse
