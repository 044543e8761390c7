import BlockLang.Proofs.Completion.Instruction
import BlockLang.Proofs.Lookahead.Program

/-!
# Incomplete programs

A token list is refused as incomplete exactly if it is not accepted and more tokens, with room for
more bodies, make it accepted. Whatever is incomplete can be completed to a derivation, and any
other error is about a token that more input leaves where it is.
-/

namespace BlockLang

namespace Parse

variable {α : Type}

/-! ## Members -/

section

variable {close : Kind} {item : Parse α} {X : Span α}

/-- Behind a comma, as anywhere else in the list, an item is missing or nothing is. -/
theorem completes_separatedStep (close : Kind) (what : String) (h : Completes item X)
    (hspell : Spells X) :
    CompletesItem (separatedStep close item what) (CommaSpan X) := by
  have hitem := Completes.item (k := close) what h
  rintro ⟨rd, ts, d⟩ e c' he hp hi
  unfold separatedStep at hp
  rw [sees_bind_apply] at hp
  by_cases hs : Cursor.sees ⟨rd, ts, d⟩ close = true
  · rw [if_pos hs] at hp
    cases hp
  · rw [if_neg hs] at hp
    cases ts with
    | nil => exact .inl rfl
    | cons t ts =>
      obtain ⟨ht, hts⟩ := endFree_cons.mp he
      rw [bind_of_ok (requireMore_cons ht what), sees_bind_apply, Cursor.sees_cons ht] at hp
      refine .inr ?_
      by_cases hcomma : t.kind = .delimiter .comma
      · -- what is left behind the comma is an item, or nothing and an item is spelled out
        have hbehind : Spells (X.after (terminals ts)) := by
          rw [decide_eq_true hcomma, if_pos rfl, skip_bind_apply, Cursor.advance_cons ht] at hp
          rcases hitem (c := ⟨t :: rd, ts, d⟩) hts hp hi with hnil | hX
          · obtain rfl : ts = [] := hnil
            exact hspell
          · exact hX
        refine hbehind.mono fun us a rest hX => ?_
        rw [Span.after, terminals_cons, (Token.terminal_eq_mark (by simp)).mpr hcomma]
        exact .comma hX
      · rw [decide_eq_false hcomma, if_neg (by simp)] at hp
        rcases bind_eq_error.mp hp with h₁ | ⟨a, c₁, -, h₂⟩
        · exact (h he h₁ hi).mono fun us a rest hX => .plain hX
        · cases h₂

/-- **A list of members** is completed by its closing token. -/
theorem completes_separated (close : Kind) (what : String)
    (hclose : close ≠ .symbol ∧ close ≠ .endOfInput ∧ close ≠ .delimiter .dot)
    (hcomma : close ≠ .delimiter .comma) (h : Completes item X) (hspell : Spells X)
    (hr : Recognizes item X Anything) (hx : Extends X) (hX : IsMember X) :
    Completes (separated close item what)
      fun ts as rest => SepSpan X ts as (.mark close :: rest) := by
  have hstep := completes_separatedStep close what h hspell
  have hsound := (recognizes_separatedStep close what hclose.1 hcomma hr hX).isSound
  have hmany := Completes.many hstep hsound (fun ha => by cases ha; assumption) hx.comma
    (CommaSpan.shorter hX.shorter)
  intro c e c' he hp hi
  rcases bind_eq_error.mp hp with h₁ | ⟨as, c₁, -, h₂⟩
  · obtain ⟨us, hus, as, has⟩ := hmany he h₁ hi
    refine ⟨us ++ [.mark close], by simp [hus, hclose], as, fun tail ht => .plain ?_⟩
    have hspan := has (.mark close :: tail) (by simp [hclose])
    simpa [Span.after] using hspan
  · cases h₂

/-- A list of members may be empty. -/
theorem spells_separated (hclose : close ≠ .symbol ∧ close ≠ .endOfInput) :
    Spells fun ts as rest => SepSpan X ts as (.mark close :: rest) :=
  ⟨[.mark close], by simp [hclose], [], fun _ _ => .plain .nil⟩

/-- Something always comes behind a list of members, its closing token. -/
theorem extends_separated (hx : Extends X) (hX : IsMember X) :
    Extends fun ts as rest => SepSpan X ts as (.mark close :: rest) :=
  fun _ _ _ h xs _ => hx.separated hX.shorter h xs (by simp)

end

/-- Two names with a token between them. -/
theorem completes_pair {k : Kind} (hk : k ≠ .symbol ∧ k ≠ .endOfInput ∧ k ≠ .delimiter .dot)
    (tag tag' : SyntaxError.Tag) (htag : tag ≠ .incompleteInput ∧ tag' ≠ .incompleteInput)
    (message : String) (what message' : String → String) (f : String → String → α) :
    Completes (expectSymbol tag message >>= fun n => expect k (what n) >>= fun _ =>
        expectSymbol tag' (message' n) >>= fun v => pure (f n v))
      fun ts a rest => ∃ n v, ts = .symbol n :: .mark k :: .symbol v :: rest ∧ a = f n v := by
  have hsecond := fun n => (Completes.expectSymbol tag' htag.2 (message' n)).map (f n)
  refine ((Completes.expectSymbol tag htag.1 message).between
    (Recognizes.expectSymbol _ _).isSound extends_name hk what hsecond
    fun n => spells_name.map (f n)).mono ?_
  rintro ts a rest ⟨n, ms, ⟨⟩, v, ⟨⟩, rfl⟩
  exact ⟨n, v, rfl, rfl⟩

theorem completes_field : Completes field FieldSpan := by
  refine (completes_pair (k := .delimiter .colon) (by simp) .missingName .missingType (by simp)
    "Expected name for field." (fun n => s!"before type of field '{n}'")
    (fun n => s!"Expected type for field with name: {n}.") Field.mk).mono ?_
  rintro ts f rest ⟨n, t, rfl, rfl⟩
  exact .colon

theorem spells_field : Spells FieldSpan :=
  ⟨[.symbol "x", .mark (.delimiter .colon), .symbol "x"], by simp, ⟨"x", "x"⟩, fun _ _ => .colon⟩

theorem completes_parameter : Completes parameter ParameterSpan := by
  refine (completes_pair (k := .delimiter .colon) (by simp) .missingName .missingType (by simp)
    "Expected name for parameter." (fun n => s!"before type of parameter '{n}'")
    (fun n => s!"Expected type for parameter with name: {n}.") Parameter.mk).mono ?_
  rintro ts p rest ⟨n, t, rfl, rfl⟩
  exact .colon

theorem spells_parameter : Spells ParameterSpan :=
  ⟨[.symbol "x", .mark (.delimiter .colon), .symbol "x"], by simp, ⟨"x", "x"⟩, fun _ _ => .colon⟩

theorem completes_fieldValue : Completes fieldValue FieldValueSpan := by
  refine (completes_pair (k := .delimiter .equal) (by simp) .missingName .missingName (by simp)
    "Expected name of field." (fun n => s!"before value of field '{n}'")
    (fun n => s!"Expected value for field: {n}.") FieldValue.mk).mono ?_
  rintro ts v rest ⟨n, x, rfl, rfl⟩
  exact .equal

theorem spells_fieldValue : Spells FieldValueSpan :=
  ⟨[.symbol "x", .mark (.delimiter .equal), .symbol "x"], by simp, ⟨"x", "x"⟩, fun _ _ => .equal⟩

/-- The members of a list between a name and what closes the list. -/
theorem completes_named (opening : Kind) {close : Kind}
    (hopen : opening ≠ .symbol ∧ opening ≠ .endOfInput ∧ opening ≠ .delimiter .dot)
    (hclose : close ≠ .symbol ∧ close ≠ .endOfInput)
    {β : Type} {p : Parse (List α)} {X : Span α} (tag : SyntaxError.Tag)
    (htag : tag ≠ .incompleteInput) (message what : String) (f : String → List α → β)
    (h : Completes p fun ts as rest => SepSpan X ts as (.mark close :: rest)) :
    Completes (expectSymbol tag message >>= fun n => expect opening what >>= fun _ =>
        p >>= fun as => pure (f n as))
      fun ts b rest => ∃ n as us, ts = .symbol n :: .mark opening :: us ∧
        SepSpan X us as (.mark close :: rest) ∧ b = f n as := by
  refine ((Completes.expectSymbol tag htag message).between
    (Recognizes.expectSymbol _ _).isSound extends_name hopen (fun _ => what)
    (fun n => h.map (f n)) fun n => (spells_separated hclose).map (f n)).mono ?_
  rintro ts b rest ⟨n, ms, ⟨⟩, as, has, rfl⟩
  exact ⟨n, as, ms, rfl, has, rfl⟩

theorem completes_dataInstance : Completes dataInstance DataInstanceSpan := by
  have hvalues := completes_separated (.delimiter .rightParen) "data instanciation values"
    (by simp) (by simp) completes_fieldValue spells_fieldValue recognizes_fieldValue
    extends_fieldValue isMember_fieldValue
  refine (completes_named (.delimiter .leftParen) (by simp) (by simp) .missingName (by simp) _ _
    DataInstance.mk hvalues).mono ?_
  rintro ts d rest ⟨n, vs, us, rfl, hvs, rfl⟩
  exact .parens hvs

theorem spells_dataInstance : Spells DataInstanceSpan := by
  refine ⟨[.symbol "x", .mark (.delimiter .leftParen), .mark (.delimiter .rightParen)], by simp,
    ⟨"x", []⟩, fun tail _ => ?_⟩
  exact .parens (.plain .nil)

/-! ## Blocks -/

theorem completes_data :
    Completes data fun ts b rest => BlockSpan (.mark (.keyword .data) :: ts) b rest := by
  have hfields := completes_separated (.delimiter .rightBrace) "data structure body" (by simp)
    (by simp) completes_field spells_field recognizes_field extends_field isMember_field
  refine (completes_named (.delimiter .leftBrace) (by simp) (by simp) .missingName (by simp) _ _
    Block.data hfields).mono ?_
  rintro ts b rest ⟨n, fs, us, rfl, hfs, rfl⟩
  exact .data hfs

/-- A group is closed twice: its parameters, and then its data instances. -/
theorem completes_group :
    Completes group fun ts b rest => BlockSpan (.mark (.keyword .group) :: ts) b rest := by
  have hparameters := completes_separated (.delimiter .rightParen) "group parameters" (by simp)
    (by simp) completes_parameter spells_parameter recognizes_parameter extends_parameter
    isMember_parameter
  have hinstances := completes_separated (.delimiter .rightBrace) "group body" (by simp) (by simp)
    completes_dataInstance spells_dataInstance recognizes_dataInstance extends_dataInstance
    isMember_dataInstance
  have hsound := (recognizes_separated (.delimiter .rightParen) "group parameters" (by simp)
    (by simp) recognizes_parameter isMember_parameter).isSound
  have hempty : Spells fun ts ds rest =>
      SepSpan DataInstanceSpan ts ds (.mark (.delimiter .rightBrace) :: rest) :=
    spells_separated (by simp)
  have hbody := fun n => hparameters.between hsound
    (extends_separated extends_parameter isMember_parameter) (k := .delimiter .leftBrace)
    (by simp) (fun _ => "to open group body") (fun ps => hinstances.map (Block.group n ps))
    fun ps => hempty.map (Block.group n ps)
  have hnone : Spells fun ts ps rest =>
      SepSpan ParameterSpan ts ps (.mark (.delimiter .rightParen) :: rest) :=
    spells_separated (by simp)
  have hspell := fun n => hnone.between (k := .delimiter .leftBrace) (by simp)
    fun ps => hempty.map (Block.group n ps)
  refine ((Completes.expectSymbol .missingName (by simp) _).between
    (Recognizes.expectSymbol _ _).isSound extends_name (k := .delimiter .leftParen) (by simp) _
    hbody hspell).mono ?_
  rintro ts b rest ⟨n, ms, ⟨⟩, ps, us, hps, ds, hds, rfl⟩
  exact .group hps hds

theorem completes_action (limit : Int) :
    Completes (action limit)
      fun ts b rest => BlockSpan (.mark (.keyword .doWord) :: ts) b rest := by
  refine ((Completes.expectSymbol .missingName (by simp) _).bind
    (Recognizes.expectSymbol _ _).isSound extends_name
    (fun n => (completes_bodyWithin limit limit.toNat "do body").map (Block.action n))
    (k := .delimiter .leftBrace) (by simp) fun n => spells_body.map (Block.action n)).mono ?_
  rintro ts b rest ⟨n, ms, ⟨⟩, is, his, rfl⟩
  exact .action his

theorem extends_action : Extends ActionSpan := by
  intro ts a rest hspan xs _
  cases hspan with
  | symbol => exact .symbol
  | other hk => exact .other hk

/-- Any token but the closing parenthesis may stand among the actions. -/
theorem completes_actions : Completes (many actionStep) (ManySpan ActionSpan) := by
  have hstep : CompletesItem actionStep ActionSpan := by
    rintro ⟨rd, ts, d⟩ e c' he hp hi
    cases ts with
    | nil => exact .inl rfl
    | cons t ts =>
      unfold actionStep at hp
      rw [sees_bind_apply] at hp
      split at hp
      · cases hp
      · rw [bind_of_ok (requireMore_cons (endFree_cons.mp he).1 _)] at hp
        cases hp
  refine .many hstep recognizes_actionStep.isSound ?_ extends_action ?_
  · rintro ts a rest (_ | ⟨-, ha⟩)
    exact ha
  · rintro ts a rest ⟨⟩ <;> simp

theorem completes_run (limit : Int) :
    Completes (run limit) fun ts b rest => BlockSpan (.mark (.keyword .run) :: ts) b rest := by
  -- both the list of actions and the body may be empty
  have hnone : Spells (ManySpan ActionSpan) := ⟨[], by simp, [], fun _ _ => .nil⟩
  have hbody : Spells BodySpan := (spells_body.mark (k := .delimiter .leftBrace) (by simp)).mono
    fun ts b rest => by
      rintro ⟨ms, rfl, hb⟩
      exact hb
  have hinside := completes_actions.upTo (k := .delimiter .rightParen) (by simp)
    recognizes_actions.isSound (extends_action.many fun h => by cases h <;> simp)
    (fun found => (completes_bodyWithin limit limit.toNat "run body").map
      (Block.run (found.filterMap id)))
    fun found => hbody.map (Block.run (found.filterMap id))
  have hspell := hnone.between (k := .delimiter .rightParen) (by simp)
    fun found => hbody.map (Block.run (found.filterMap id))
  have hopened := Completes.expect (k := .delimiter .leftParen) (by simp)
    "to open list of actions to do" (fun _ => hinside) hspell
  refine hopened.mono ?_
  rintro ts b rest ⟨ms, rfl, found, us, hfound, is, his, rfl⟩
  exact .run (actionsSpan_iff.mpr ⟨found, hfound, rfl⟩) his

/-! ## Programs -/

/-- **A block** that has begun is completed. -/
theorem completes_blockBehind (limit : Int) (t : Token) :
    Completes (blockBehind limit t) fun ts b rest => BlockSpan (t.terminal :: ts) b rest := by
  have hfail : Completes
      (throw (.about .unexpectedToken s!"Unexpected token: {t.value}" t) : Parse Block)
      fun ts b rest => BlockSpan (t.terminal :: ts) b rest :=
    .throw (by simp [SyntaxError.about])
  unfold blockBehind
  cases hk : t.kind with
  | keyword k =>
    have ht := Token.terminal_of_ne (t := t) (by simp [hk])
    rw [hk] at ht
    cases k with
    | data =>
      rw [ht]
      exact completes_data
    | group =>
      rw [ht]
      exact completes_group
    | doWord =>
      rw [ht]
      exact completes_action limit
    | run =>
      rw [ht]
      exact completes_run limit
    | _ => exact hfail
  | _ => exact hfail

theorem completes_blockStep (limit : Int) : CompletesItem (blockStep limit) BlockSpan := by
  rintro ⟨rd, ts, d⟩ e c' he hp hi
  cases ts with
  | nil => exact .inl rfl
  | cons t ts =>
    obtain ⟨ht, hts⟩ := endFree_cons.mp he
    rw [blockStep_eq, peek_bind_apply, Cursor.peek_cons ht] at hp
    simp only [skip_bind_apply, Cursor.advance_cons ht] at hp
    rcases bind_eq_error.mp hp with h₁ | ⟨b, c₁, -, h₂⟩
    · exact .inr (completes_blockBehind limit t (c := ⟨t :: rd, ts, d⟩) hts h₁ hi)
    · cases h₂

/-- **A program** is completed by its last block. -/
theorem completes_program (limit : Int) :
    Completes (program limit) fun ts p rest => ManySpan BlockSpan ts p.blocks rest := by
  have hblocks : Completes (many (blockStep limit)) (ManySpan BlockSpan) := by
    refine .many (completes_blockStep limit) (recognizes_blockStep limit).isSound ?_
      (fun _ _ _ h xs _ => h.append xs) BlockSpan.shorter
    rintro ts b rest (_ | ⟨-, hb, -⟩)
    exact hb
  refine (hblocks.map Program.mk).mono ?_
  rintro ts p rest ⟨bs, hbs, rfl⟩
  exact hbs

end Parse

namespace Program

/-- Terminals that derive a program are accepted with enough room for its bodies. -/
theorem Derives.accepted {ts : List Token} {p : Program} (h : Derives (terminals ts) p)
    (he : EndFree ts) (d : Nat) : ∃ d', d ≤ d' ∧ ofTokens d' ts = .ok p :=
  ⟨max d p.depth, Nat.le_max_left _ _,
    (ofTokens_eq_ok _ he).mpr ⟨h, Nat.le_max_right _ _⟩⟩

/-- **What is incomplete can be completed**, given room for the bodies of the completed program. -/
theorem completed_of_incomplete {ts : List Token} {d : Nat} {e : SyntaxError} (he : EndFree ts)
    (h : ofTokens d ts = .error e) (hi : e.tag = .incompleteInput) :
    ∃ more d', d ≤ d' ∧ ∃ p, ofTokens d' (ts ++ more) = .ok p := by
  obtain ⟨c, hc⟩ := ofTokens_eq_error.mp h
  obtain ⟨us, hus, p, hp⟩ := Parse.completes_program d (c := ⟨[], ts, 0⟩) he hc hi
  obtain ⟨more, hmore, rfl⟩ := hus.exists_tokens
  have hderives : Derives (terminals (ts ++ more)) p := by
    simpa [Span.after, Derives] using hp [] endsValue_nil
  have hall : EndFree (ts ++ more) := List.forall_mem_append.mpr ⟨he, hmore⟩
  obtain ⟨d', hd', hok⟩ := hderives.accepted hall d
  exact ⟨more, d', hd', p, hok⟩

/-- **What can be completed is incomplete**: an error that is about a token is met again, whatever
comes behind the input. -/
theorem incomplete_of_completed {ts more : List Token} {d d' : Nat} {e : SyntaxError} {p : Program}
    (he : EndFree ts) (h : ofTokens d ts = .error e) (hdeep : e.tag ≠ .nestingTooDeep)
    (hd : d ≤ d') (hp : ofTokens d' (ts ++ more) = .ok p) : e.tag = .incompleteInput := by
  by_contra hinput
  have hlimit : (d : Int).toNat ≤ (d' : Int).toNat := by omega
  obtain ⟨us, t, post, rfl, -, hstays⟩ := ofTokens_error_stays he hlimit h hinput hdeep
  have herror := hstays (post ++ more)
  rw [List.append_assoc, List.cons_append, herror] at hp
  cases hp

/-- **Incomplete means that more input could still fix it**: a token list that is not refused for
its depth is incomplete exactly if it is not accepted, but is with some tokens behind it and a limit
that may be higher. -/
theorem ofTokens_incomplete_iff {ts : List Token} (he : EndFree ts) (d : Nat)
    (hdeep : ∀ e, ofTokens d ts = .error e → e.tag ≠ .nestingTooDeep) :
    (∃ e, ofTokens d ts = .error e ∧ e.tag = .incompleteInput) ↔
      (¬ ∃ p, ofTokens d ts = .ok p) ∧
        ∃ (more : List Token) (d' : Nat), d ≤ d' ∧ ∃ p, ofTokens d' (ts ++ more) = .ok p := by
  constructor
  · rintro ⟨e, h, hi⟩
    refine ⟨?_, completed_of_incomplete he h hi⟩
    rintro ⟨p, hp⟩
    rw [h] at hp
    cases hp
  · rintro ⟨hrefused, more, d', hd, p, hp⟩
    cases h : ofTokens d ts with
    | ok q => exact absurd ⟨q, h⟩ hrefused
    | error e => exact ⟨e, rfl, incomplete_of_completed he h (hdeep e h) hd hp⟩

/-- The tokens of `do f { if x`. -/
def openBranch : List Token :=
  emptyAction.take 3 ++ [⟨.keyword .ifWord, "if", 1, 8⟩, ⟨.symbol, "x", 1, 11⟩]

/-- A branch without its body is incomplete with room for one body, though what completes it has
two. -/
theorem ofTokens_openBranch :
    EndFree openBranch ∧ (∀ e, ofTokens 1 openBranch = .error e → e.tag ≠ .nestingTooDeep) ∧
      ∃ e, ofTokens 1 openBranch = .error e ∧ e.tag = .incompleteInput := by
  have he : EndFree openBranch := by simp [openBranch, emptyAction]
  have herror : ofTokens 1 openBranch = .error ⟨.incompleteInput,
      "Expected '\x7b' to open if body, got end of input.", none, 1, 12⟩ := by cbv
  have hdeep : ∀ e, ofTokens 1 openBranch = .error e → e.tag ≠ .nestingTooDeep := by
    intro e h
    rw [herror] at h
    cases h
    simp
  have hrefused : ¬ ∃ p, ofTokens 1 openBranch = .ok p := by
    rintro ⟨p, h⟩
    rw [herror] at h
    cases h
  have haccepted : ofTokens 2 (openBranch ++ (emptyAction.drop 2 ++ emptyAction.drop 3)) =
      .ok ⟨[.action "f" [.branch (.value "x") []]]⟩ := by cbv
  exact ⟨he, hdeep, (ofTokens_incomplete_iff he 1 hdeep).mpr
    ⟨hrefused, _, 2, by decide, _, haccepted⟩⟩

end Program

end BlockLang
