import BlockLang.Proofs.Recognition.Instruction
import BlockLang.Grammar.Program

/-!
# Recognition of programs

Members of blocks stand in lists whose commas may be left out; such a list ends in front of its
closing token, behind one comma at most. A program is recognised block by block up to the end of
the tokens, so it accepts exactly the token lists that derive a program no deeper than its limit.
-/

namespace BlockLang

namespace Parse

variable {α : Type}

/-! ## Lists of members -/

/-- One step through a list of members. -/
inductive SeparatedSpan (close : Kind) (X : Span α) : Span (Option α)
  | stop {ts} : StartsWith close ts → SeparatedSpan close X ts none ts
  | commaStop {ts} : StartsWith close ts →
      SeparatedSpan close X (.mark (.delimiter .comma) :: ts) none ts
  | item {ts rest a} : CommaSpan X ts a rest → SeparatedSpan close X ts (some a) rest

section

variable {close : Kind} {X : Span α}

/-- The steps up to the closing token are the members and one comma more at most. -/
theorem stepsSpan_separated {ts rest : List Terminal} {as : List α} :
    StepsSpan (SeparatedSpan close X) ts as rest ↔
      SepSpan X ts as rest ∧ StartsWith close rest := by
  constructor
  · intro h
    -- the last step is where the comma behind the members may stand
    induction h with
    | stop h =>
      cases h with
      | stop h => exact ⟨.plain .nil, h⟩
      | commaStop h => exact ⟨.comma .nil, h⟩
    | more h _ ih =>
      cases h with
      | item h =>
        refine ⟨?_, ih.2⟩
        rcases ih.1 with hs | hs
        · exact .plain (.cons h hs)
        · exact .comma (.cons h hs)
  · rintro ⟨h | h, hclose⟩
    · induction h with
      | nil => exact .stop (.stop hclose)
      | cons h _ ih => exact .more (.item h) (ih hclose)
    · generalize hms : Terminal.mark (.delimiter .comma) :: rest = ms at h
      induction h with
      | nil =>
        subst hms
        exact .stop (.commaStop hclose)
      | cons h _ ih => exact .more (.item h) (ih hms)

theorem recognizes_separatedStep (close : Kind) {item : Parse α} (what : String)
    (hclose : close ≠ .symbol) (hcomma : close ≠ .delimiter .comma)
    (h : Recognizes item X Anything) (hX : IsMember X) :
    Recognizes (separatedStep close item what) (SeparatedSpan close X) Anything := by
  have hitem := h.map some
  -- what is read behind a comma, and what is read without one
  have hbehind := (Recognizes.pure none).sees hclose
    (Recognizes.requireMore (S := fun _ => _) what fun _ => hitem)
  have hfront := (hbehind.skip).sees (k := .delimiter .comma) (by simp) hitem
  refine ((Recognizes.pure none).sees hclose
    (Recognizes.requireMore (S := fun _ => _) what fun _ => hfront)).congr fun ts o rest => ?_
  constructor
  · rintro (⟨hs, rfl, rfl⟩ | ⟨hs, w, us, rfl, h⟩)
    · exact .stop hs
    · rcases h with ⟨⟨vs, hv⟩, ⟨hs', rfl, rfl⟩ | ⟨hs', w', us', hus, a, ha, rfl⟩⟩ | ⟨hv, a, ha, rfl⟩
      · cases hv
        exact .commaStop hs'
      · cases hv
        exact .item (.comma ha)
      · exact .item (.plain ha)
  · rintro (hs | hs | hs)
    · exact .inl ⟨hs, rfl, rfl⟩
    · refine .inr ⟨?_, _, _, rfl, .inl ⟨⟨_, rfl⟩, .inl ⟨hs, rfl, rfl⟩⟩⟩
      simpa using Ne.symm hcomma
    · cases hs with
      | plain ha =>
        obtain ⟨n, more, rfl⟩ := hX.symbol ha
        exact .inr ⟨by simp, _, _, rfl, .inr ⟨by simp, _, ha, rfl⟩⟩
      | comma ha =>
        obtain ⟨n, more, rfl⟩ := hX.symbol ha
        refine .inr ⟨?_, _, _, rfl, .inl ⟨⟨_, rfl⟩, .inr ⟨by simp, _, _, rfl, _, ha, rfl⟩⟩⟩
        simpa using Ne.symm hcomma

/-- **A list of members** up to its closing token, which is read. -/
theorem recognizes_separated (close : Kind) {item : Parse α} (what : String)
    (hclose : close ≠ .symbol) (hcomma : close ≠ .delimiter .comma)
    (h : Recognizes item X Anything) (hX : IsMember X) :
    Recognizes (separated close item what)
      (fun ts as rest => SepSpan X ts as (.mark close :: rest)) Anything := by
  have hstep := recognizes_separatedStep close what hclose hcomma h hX
  have hmany := (hstep.many (G := Anything)
    (by rintro ts a rest (_ | _ | ha)
        exact CommaSpan.shorter hX.shorter ha)
    (fun _ _ => trivial) (fun _ _ => trivial)).congr fun ts as rest => stepsSpan_separated
  refine (hmany.upTo fun as => Recognizes.pure as).congr fun ts as rest => ?_
  constructor
  · rintro ⟨as', _, h, rfl, rfl⟩
    exact h
  · intro h
    exact ⟨as, _, h, rfl, rfl⟩

end

/-! ## Members -/

/-- Two names with a token between them. -/
theorem recognizes_pair {k : Kind} (hk : k ≠ .symbol) (tag tag' : SyntaxError.Tag)
    (message : String) (what message' : String → String) (f : String → String → α) :
    Recognizes (expectSymbol tag message >>= fun n => expect k (what n) >>= fun _ =>
        expectSymbol tag' (message' n) >>= fun v => pure (f n v))
      (fun ts a rest => ∃ n v, ts = .symbol n :: .mark k :: .symbol v :: rest ∧ a = f n v)
      Anything := by
  refine ((Recognizes.expectSymbol _ _).bind (fun n =>
    ((Recognizes.expectSymbol tag' (message' n)).map (f n)).expect hk _)
    fun _ _ => trivial).congr fun ts a rest => ?_
  constructor
  · rintro ⟨n, ms, ⟨⟩, us, rfl, v, ⟨⟩, rfl⟩
    exact ⟨n, v, rfl, rfl⟩
  · rintro ⟨n, v, rfl, rfl⟩
    exact ⟨n, _, .symbol, _, rfl, v, .symbol, rfl⟩

theorem recognizes_field : Recognizes field FieldSpan Anything := by
  refine (recognizes_pair (k := .delimiter .colon) (by simp) .missingName .missingType
    "Expected name for field." (fun n => s!"before type of field '{n}'")
    (fun n => s!"Expected type for field with name: {n}.") Field.mk).congr fun ts a rest => ?_
  constructor
  · rintro ⟨n, t, rfl, rfl⟩
    exact .colon
  · rintro ⟨⟩
    exact ⟨_, _, rfl, rfl⟩

theorem recognizes_parameter : Recognizes parameter ParameterSpan Anything := by
  refine (recognizes_pair (k := .delimiter .colon) (by simp) .missingName .missingType
    "Expected name for parameter." (fun n => s!"before type of parameter '{n}'")
    (fun n => s!"Expected type for parameter with name: {n}.") Parameter.mk).congr
    fun ts a rest => ?_
  constructor
  · rintro ⟨n, t, rfl, rfl⟩
    exact .colon
  · rintro ⟨⟩
    exact ⟨_, _, rfl, rfl⟩

theorem recognizes_fieldValue : Recognizes fieldValue FieldValueSpan Anything := by
  refine (recognizes_pair (k := .delimiter .equal) (by simp) .missingName .missingName
    "Expected name of field." (fun n => s!"before value of field '{n}'")
    (fun n => s!"Expected value for field: {n}.") FieldValue.mk).congr fun ts a rest => ?_
  constructor
  · rintro ⟨n, v, rfl, rfl⟩
    exact .equal
  · rintro ⟨⟩
    exact ⟨_, _, rfl, rfl⟩

theorem recognizes_dataInstance : Recognizes dataInstance DataInstanceSpan Anything := by
  have hvalues := recognizes_separated (.delimiter .rightParen) "data instanciation values"
    (by simp) (by simp) recognizes_fieldValue isMember_fieldValue
  refine ((Recognizes.expectSymbol _ _).bind (fun n =>
    (hvalues.map (DataInstance.mk n)).expect (k := .delimiter .leftParen) (by simp) _)
    fun _ _ => trivial).congr fun ts a rest => ?_
  constructor
  · rintro ⟨n, ms, ⟨⟩, us, rfl, vs, h, rfl⟩
    exact .parens h
  · rintro ⟨h⟩
    exact ⟨_, _, .symbol, _, rfl, _, h, rfl⟩

/-! ## Blocks -/

/-- `NAME { field, ... }` -/
theorem recognizes_data :
    Recognizes data
      (fun ts b rest => BlockSpan (.mark (.keyword .data) :: ts) b rest) Anything := by
  have hfields := recognizes_separated (.delimiter .rightBrace) "data structure body"
    (by simp) (by simp) recognizes_field isMember_field
  refine ((Recognizes.expectSymbol _ _).bind (fun n =>
    (hfields.map (Block.data n)).expect (k := .delimiter .leftBrace) (by simp) _)
    fun _ _ => trivial).congr fun ts b rest => ?_
  constructor
  · rintro ⟨n, ms, ⟨⟩, us, rfl, fs, h, rfl⟩
    exact .data h
  · rintro ⟨h⟩
    exact ⟨_, _, .symbol, _, rfl, _, h, rfl⟩

/-- `NAME(parameter, ...) { data instance ... }` -/
theorem recognizes_group :
    Recognizes group
      (fun ts b rest => BlockSpan (.mark (.keyword .group) :: ts) b rest) Anything := by
  have hparameters := recognizes_separated (.delimiter .rightParen) "group parameters"
    (by simp) (by simp) recognizes_parameter isMember_parameter
  have hinstances := recognizes_separated (.delimiter .rightBrace) "group body"
    (by simp) (by simp) recognizes_dataInstance isMember_dataInstance
  refine ((Recognizes.expectSymbol _ _).bind (fun n =>
    (hparameters.bind (fun ps =>
      (hinstances.map (Block.group n ps)).expect (k := .delimiter .leftBrace) (by simp) _)
      fun _ _ => trivial).expect (k := .delimiter .leftParen) (by simp) _)
    fun _ _ => trivial).congr fun ts b rest => ?_
  constructor
  · rintro ⟨n, ms, ⟨⟩, us, rfl, ps, _, hps, vs, rfl, ds, hds, rfl⟩
    exact .group hps hds
  · intro h
    cases h with
    | group hps hds => exact ⟨_, _, .symbol, _, rfl, _, _, hps, _, rfl, _, hds, rfl⟩

/-- `NAME body` -/
theorem recognizes_action (limit : Int) :
    Recognizes (action limit)
      (fun ts b rest => BlockSpan (.mark (.keyword .doWord) :: ts) b rest ∧
        b.depth ≤ limit.toNat) Anything := by
  refine ((Recognizes.expectSymbol _ _).bind (fun n =>
    (recognizes_body limit "do body").map (Block.action n)) fun _ _ => trivial).congr
    fun ts b rest => ?_
  constructor
  · rintro ⟨n, ms, ⟨⟩, b, ⟨hb, hd⟩, rfl⟩
    exact ⟨.action hb, hd⟩
  · rintro ⟨h, hd⟩
    cases h with
    | action hb => exact ⟨_, _, .symbol, _, ⟨hb, hd⟩, rfl⟩

/-- The name of an action, or a token that is passed over. -/
inductive ActionSpan : Span (Option String)
  | symbol {rest s} : ActionSpan (.symbol s :: rest) (some s) rest
  | other {rest k} : k ≠ .delimiter .rightParen → ActionSpan (.mark k :: rest) none rest

/-- The actions to run are the names among the tokens. -/
theorem actionsSpan_iff {ts rest : List Terminal} {as : List String} :
    ActionsSpan ts as rest ↔
      ∃ found, ManySpan ActionSpan ts found rest ∧ as = found.filterMap id := by
  constructor
  · intro h
    induction h with
    | nil => exact ⟨[], .nil, rfl⟩
    | symbol _ ih =>
      obtain ⟨found, hfound, rfl⟩ := ih
      exact ⟨some _ :: found, .cons .symbol hfound, rfl⟩
    | other hk _ ih =>
      obtain ⟨found, hfound, rfl⟩ := ih
      exact ⟨none :: found, .cons (.other hk) hfound, rfl⟩
  · rintro ⟨found, h, rfl⟩
    induction h with
    | nil => exact .nil
    | cons h _ ih =>
      cases h with
      | symbol => exact .symbol ih
      | other hk => exact .other hk ih

/-- What one action spans, told by its first token. -/
def actionAt : Terminal → Span (Option (Option String))
  | .symbol s, ts, o, rest => o = some (some s) ∧ rest = ts.tail
  | .mark _, ts, o, rest => o = some none ∧ rest = ts.tail

theorem recognizes_actionStep :
    Recognizes actionStep (UntilSpan (StartsWith (.delimiter .rightParen)) ActionSpan)
      Anything := by
  have hat : ∀ t : Token, Recognizes
      (skip >>= fun _ => pure (some (if t.kind = .symbol then some t.value else none)))
      (actionAt t.terminal) Anything := by
    intro t
    by_cases ht : t.kind = .symbol
    · rw [if_pos ht, Token.terminal_of_symbol ht]
      exact (Recognizes.pure _).skip
    · rw [if_neg ht, Token.terminal_of_ne ht]
      exact (Recognizes.pure _).skip
  refine ((Recognizes.pure none).sees (k := .delimiter .rightParen) (by simp)
    (Recognizes.requireMore "list of actions to do" hat)).congr fun ts o rest => ?_
  constructor
  · rintro (⟨hs, rfl, rfl⟩ | ⟨hs, w, us, rfl, h⟩)
    · exact .stop hs
    · cases w with
      | symbol n =>
        obtain ⟨rfl, rfl⟩ := h
        exact .item hs .symbol
      | mark k =>
        obtain ⟨rfl, rfl⟩ := h
        exact .item hs (.other (by simpa using hs))
  · rintro (hs | ⟨hs, ⟨⟩ | hk⟩)
    · exact .inl ⟨hs, rfl, rfl⟩
    · exact .inr ⟨hs, _, _, rfl, rfl, rfl⟩
    · exact .inr ⟨hs, _, _, rfl, rfl, rfl⟩

/-- The actions end in front of a closing parenthesis. -/
theorem recognizes_actions :
    Recognizes (many actionStep)
      (fun ts found rest => ManySpan ActionSpan ts found rest ∧
        StartsWith (.delimiter .rightParen) rest) Anything := by
  refine recognizes_actionStep.manyUntil ?_ fun _ _ => trivial
  rintro ts a rest (⟨⟩ | hk)
  · exact ⟨by simp, trivial, by simp⟩
  · exact ⟨by simpa using hk, trivial, by simp⟩

/-- `(action ...) body` -/
theorem recognizes_run (limit : Int) :
    Recognizes (run limit)
      (fun ts b rest => BlockSpan (.mark (.keyword .run) :: ts) b rest ∧
        b.depth ≤ limit.toNat) Anything := by
  refine ((recognizes_actions.upTo fun found =>
    (recognizes_body limit "run body").map (Block.run (found.filterMap id))).expect
      (k := .delimiter .leftParen) (by simp) _).congr fun ts b rest => ?_
  constructor
  · rintro ⟨us, rfl, found, ms, h, b, ⟨hb, hd⟩, rfl⟩
    exact ⟨.run (actionsSpan_iff.mpr ⟨found, h, rfl⟩) hb, hd⟩
  · rintro ⟨h, hd⟩
    cases h with
    | run h hb =>
      obtain ⟨found, hfound, rfl⟩ := actionsSpan_iff.mp h
      exact ⟨_, rfl, found, _, hfound, _, ⟨hb, hd⟩, rfl⟩

/-! ## Programs -/

/-- What a block spans, told by its first token. -/
def blockAt (room : Nat) : Terminal → Span Block
  | .mark (.keyword .data), ts, b, rest => BlockSpan (.mark (.keyword .data) :: ts) b rest
  | .mark (.keyword .group), ts, b, rest => BlockSpan (.mark (.keyword .group) :: ts) b rest
  | .mark (.keyword .doWord), ts, b, rest =>
    BlockSpan (.mark (.keyword .doWord) :: ts) b rest ∧ b.depth ≤ room
  | .mark (.keyword .run), ts, b, rest =>
    BlockSpan (.mark (.keyword .run) :: ts) b rest ∧ b.depth ≤ room
  | _, _, _, _ => False

/-- Reading the next token, and reading on as it asks; there has to be one. -/
theorem Recognizes.next {f : Option Token → Parse α} {e : SyntaxError} {S : Terminal → Span α}
    {F : List Terminal → Prop} (hnone : f none = throw e)
    (h : ∀ t, Recognizes (f (some t)) (S t.terminal) F) :
    Recognizes (Parse.next >>= f) (fun ts a rest => ∃ w us, ts = w :: us ∧ S w us a rest) F where
  sound := by
    rintro ⟨rd, ts, d⟩ c' a he hp
    cases ts with
    | nil =>
      rw [next_bind_nil, hnone] at hp
      cases hp
    | cons u ts =>
      obtain ⟨hu, hts⟩ := endFree_cons.mp he
      rw [next_bind_cons hu] at hp
      obtain ⟨hs, hS⟩ := (h u).sound hts hp
      exact ⟨hs.trans (List.suffix_cons _ _), _, _, rfl, hS⟩
  complete := by
    rintro ⟨rd, ts, d⟩ a rest he ⟨w, us, hts, hS⟩ hF
    cases ts with
    | nil => cases hts
    | cons u ts =>
      cases hts
      obtain ⟨hu, hts⟩ := endFree_cons.mp he
      rw [next_bind_cons hu]
      exact (h u).complete (c := ⟨u :: rd, ts, d⟩) hts hS hF

/-- **A block** is recognised if its body is no deeper than the limit. -/
theorem recognizes_block (limit : Int) :
    Recognizes (block limit) (fun ts b rest => BlockSpan ts b rest ∧ b.depth ≤ limit.toNat)
      Anything := by
  refine (Recognizes.next (S := blockAt limit.toNat)
    (e := ⟨.noTokens, "No token provided.", none, 0, 0⟩) rfl fun t => ?_).congr
    fun ts b rest => ?_
  · dsimp only
    cases hk : t.kind with
    | keyword k =>
      rw [Token.terminal_of_ne (by simp [hk]), hk]
      cases k with
      | data => exact recognizes_data
      | group => exact recognizes_group
      | doWord => exact recognizes_action limit
      | run => exact recognizes_run limit
      | _ => exact recognizes_throw _
    | symbol =>
      rw [Token.terminal_of_symbol hk]
      exact recognizes_throw _
    | _ =>
      rw [Token.terminal_of_ne (by simp [hk]), hk]
      exact recognizes_throw _
  · constructor
    · rintro ⟨w, us, rfl, h⟩
      -- data structures and groups hold no bodies, so they fit any limit
      unfold blockAt at h
      split at h
      · refine ⟨h, ?_⟩
        cases h
        exact Nat.zero_le _
      · refine ⟨h, ?_⟩
        cases h
        exact Nat.zero_le _
      · exact h
      · exact h
      · exact h.elim
    · rintro ⟨h, hd⟩
      cases h with
      | data h => exact ⟨_, _, rfl, .data h⟩
      | group hps hds => exact ⟨_, _, rfl, .group hps hds⟩
      | action hb => exact ⟨_, _, rfl, .action hb, hd⟩
      | run ha hb => exact ⟨_, _, rfl, .run ha hb, hd⟩

/-- One more block, or the end of the tokens. -/
theorem recognizes_blockStep (limit : Int) :
    Recognizes (blockStep limit)
      (UntilSpan (· = []) (fun ts b rest => BlockSpan ts b rest ∧ b.depth ≤ limit.toNat))
      Anything := by
  have hsome := (recognizes_block limit).map some
  constructor
  · rintro ⟨rd, ts, d⟩ c' o he h
    cases ts with
    | nil =>
      cases h
      exact ⟨List.suffix_rfl, .stop rfl⟩
    | cons t ts =>
      have hpeek : (⟨rd, t :: ts, d⟩ : Cursor).peek = some t :=
        Cursor.peek_cons (endFree_cons.mp he).1
      simp only [blockStep, peek_bind_apply, hpeek] at h
      obtain ⟨hs, b, hb, rfl⟩ := hsome.sound he h
      exact ⟨hs, .item (by simp) hb⟩
  · rintro ⟨rd, ts, d⟩ o rest he h -
    cases ts with
    | nil =>
      cases h with
      | stop => exact ⟨_, rfl, rfl⟩
      | item hne => exact absurd rfl hne
    | cons t ts =>
      have hpeek : (⟨rd, t :: ts, d⟩ : Cursor).peek = some t :=
        Cursor.peek_cons (endFree_cons.mp he).1
      simp only [blockStep, peek_bind_apply, hpeek]
      cases h with
      | stop hnil => cases hnil
      | item _ hb => exact hsome.complete he ⟨_, hb, rfl⟩ trivial

/-- The blocks of a program reach up to the end of the tokens. -/
theorem recognizes_blocks (limit : Int) :
    Recognizes (many (blockStep limit))
      (fun ts bs rest => ManySpan (fun ts b rest => BlockSpan ts b rest ∧ b.depth ≤ limit.toNat)
        ts bs rest ∧ rest = []) Anything := by
  refine (recognizes_blockStep limit).manyUntil ?_ fun _ _ => trivial
  rintro ts b rest ⟨h, -⟩
  refine ⟨?_, trivial, h.shorter⟩
  rintro rfl
  cases h

end Parse

namespace Program

/-- A program is its blocks, one after the other. -/
theorem ofTokens_eq_many (limit : Int) (ts : List Token) :
    ofTokens limit ts = match Parse.many (Parse.blockStep limit) ⟨[], ts, 0⟩ with
      | .ok bs _ => .ok ⟨bs⟩
      | .error e _ => .error e := by
  unfold ofTokens Parse.program
  cases h : Parse.many (Parse.blockStep limit) ⟨[], ts, 0⟩ with
  | ok bs c =>
    rw [Parse.bind_of_ok h]
    rfl
  | error e c => rw [Parse.bind_of_error h]

/-- No tokens are the program without blocks. -/
theorem ofTokens_nil (limit : Int) : ofTokens limit [] = .ok ⟨[]⟩ := by
  have hstop : Parse.blockStep limit ⟨[], [], 0⟩ = .ok none ⟨[], [], 0⟩ := rfl
  rw [ofTokens_eq_many, Parse.many_of_none hstop]

/-- A program is returned exactly if it is derived and no deeper than the limit. -/
theorem ofTokens_eq_ok (limit : Int) {ts : List Token} (he : EndFree ts) {p : Program} :
    ofTokens limit ts = .ok p ↔ Derives (terminals ts) p ∧ p.depth ≤ limit.toNat := by
  have hrun : ofTokens limit ts = .ok p ↔
      ∃ c, Parse.many (Parse.blockStep limit) ⟨[], ts, 0⟩ = .ok p.blocks c := by
    obtain ⟨bs⟩ := p
    rw [ofTokens_eq_many]
    cases Parse.many (Parse.blockStep limit) ⟨[], ts, 0⟩ <;> simp
  have hblocks := Parse.recognizes_blocks limit
  rw [hrun, Derives, depth_le]
  constructor
  · rintro ⟨c, h⟩
    obtain ⟨-, hspan, hnil⟩ := hblocks.sound (c := ⟨[], ts, 0⟩) he h
    rw [hnil] at hspan
    exact Parse.manySpan_and.mp hspan
  · intro h
    have hspan := Parse.manySpan_and.mpr h
    obtain ⟨c, hc, -⟩ := hblocks.complete (c := ⟨[], ts, 0⟩) he ⟨hspan, rfl⟩ trivial
    exact ⟨c, hc⟩

/-- **A token list is accepted exactly if it derives a program** whose bodies nest at most as deep
as the limit, and the program returned is the derived one. -/
theorem ofTokens_iff_derives {ts : List Token} (he : EndFree ts) (d : Nat) (p : Program) :
    ofTokens d ts = .ok p ↔ Derives (terminals ts) p ∧ p.depth ≤ d :=
  ofTokens_eq_ok d he

/-- The tokens of `do f { }`. -/
def emptyAction : List Token :=
  [⟨.keyword .doWord, "do", 1, 1⟩, ⟨.symbol, "f", 1, 4⟩,
    ⟨.delimiter .leftBrace, "\x7b", 1, 6⟩, ⟨.delimiter .rightBrace, "\x7d", 1, 8⟩]

/-- An action with an empty body is derived, and accepted with room for one body. -/
theorem ofTokens_emptyAction :
    EndFree emptyAction ∧ ofTokens 1 emptyAction = .ok ⟨[.action "f" []]⟩ := by
  have he : EndFree emptyAction := by simp [emptyAction]
  have hderives : Derives (terminals emptyAction) ⟨[.action "f" []]⟩ :=
    .cons (.action (.braces .nil)) .nil
  exact ⟨he, (ofTokens_iff_derives he 1 _).mpr ⟨hderives, by decide⟩⟩

/-! ## Sources -/

/-- A source denotes what its tokens denote. -/
theorem ofSource_of_tokenize {v : Vocabulary} {s : String} {ts : List Token}
    (h : tokenize v s = .ok ts) (limit : Int) : ofSource v limit s = ofTokens limit ts := by
  unfold ofSource
  rw [h]
  rfl

/-- A source without tokens denotes nothing. -/
theorem ofSource_of_tokenize_error {v : Vocabulary} {s : String} {e : SyntaxError}
    (h : tokenize v s = .error e) (limit : Int) : ofSource v limit s = .error e := by
  unfold ofSource
  rw [h]
  rfl

/-- What a source denotes, its tokens denote. -/
theorem exists_tokens_of_ofSource {v : Vocabulary} {s : String} {limit : Int} {p : Program}
    (h : ofSource v limit s = .ok p) :
    ∃ ts, tokenize v s = .ok ts ∧ ofTokens limit ts = .ok p := by
  cases hts : tokenize v s with
  | error e =>
    rw [ofSource_of_tokenize_error hts] at h
    cases h
  | ok ts =>
    rw [ofSource_of_tokenize hts] at h
    exact ⟨ts, rfl, h⟩

end Program

end BlockLang
