import BlockLang.Grammar.Rule
import BlockLang.Proofs.Lookahead.Runs

/-!
# Calls

Every rule of the grammar can be called by itself, and so can a body and a list of items. One call
follows another from wherever the last one has left off, which may be the middle of a body that was
refused. Whatever the calls are, each of them ends, no body is left open, and the cursor never moves
back and never past an end mark. A call that succeeds with a token in front has read one, and that
is also why a list of such items ends.
-/

namespace BlockLang

/-! ## Sound cursors -/

/-- The position of the first end mark, or behind the last token if there is none. -/
def Token.endPosition (tokens : List Token) : Nat := tokens.findIdx (·.kind = .endOfInput)

namespace Cursor

/-- **A sound cursor** of some tokens: no body is open, and the cursor stands between the tokens, of
which it has not read an end mark. -/
structure Sound (tokens : List Token) (c : Cursor) : Prop where
  closed : c.depth = 0
  within : c.Within tokens
  endFree : EndFree c.read

variable {tokens : List Token} {c c' : Cursor}

theorem sound_start (tokens : List Token) : Sound tokens ⟨[], tokens, 0⟩ := ⟨rfl, rfl, endFree_nil⟩

theorem Sound.advance (h : c.Sound tokens) : c.advance.Sound tokens := by
  refine ⟨?_, h.within.advance, ?_⟩ <;>
    rcases c.advance_eq_or with heq | ⟨t, rest, -, ht, heq⟩ <;> rw [heq]
  · exact h.closed
  · exact h.closed
  · exact h.endFree
  · exact endFree_cons.mpr ⟨ht, h.endFree⟩

theorem Sound.ahead (h : c.Sound tokens) (ha : c.Ahead c') : c'.Sound tokens :=
  ha.keeps (fun _ => Sound.advance) h

/-- **A sound cursor has not passed an end mark.** -/
theorem Sound.position_le (h : c.Sound tokens) : c.position ≤ Token.endPosition tokens := by
  have hnone : c.read.reverse.findIdx (·.kind = .endOfInput) = c.read.reverse.length :=
    List.findIdx_eq_length_of_false fun t ht => by simpa using h.endFree t (by simpa using ht)
  rw [Token.endPosition, ← h.within, List.findIdx_append, hnone]
  simp [position]

/-- Where fewer tokens are left, more have been read. -/
theorem Sound.position_lt (h : c.Sound tokens) (h' : c'.Sound tokens)
    (hlt : c'.rest.length < c.rest.length) : c.position < c'.position := by
  have hc : c.read.length + c.rest.length = tokens.length := by
    rw [← h.within, List.length_append, List.length_reverse]
  have hc' : c'.read.length + c'.rest.length = tokens.length := by
    rw [← h'.within, List.length_append, List.length_reverse]
  rw [position, position]
  omega

/-- Only the end of the input is not read. -/
theorem advance_of_peek_none (h : c.peek = none) : c.advance = c := by
  rcases c.advance_eq_or with heq | ⟨t, rest, hrest, ht, -⟩
  · exact heq
  · rw [peek, hrest] at h
    exact absurd h (by simp [Token.first?, ht])

end Cursor

namespace Parse

variable {α β : Type}

/-! ## The count of open bodies -/

theorem depth_of_expect {k : Kind} {what : String} {t : Token} {c c' : Cursor}
    (h : expect k what c = .ok t c') : c'.depth = c.depth := by
  have hread : (expect k what >>= fun _ => pure () : Parse Unit) c = .ok () c' := by
    rw [bind_of_ok h, pure_apply]
  exact ((Predictive.expect k what (.pure ())).halts.ahead hread).depth_eq

/-- **A body is refused where the open bodies, itself counted, are more than the limit.** The room
for further bodies is what the count leaves. -/
theorem bodyWithin_counts (limit : Int) (room : Nat) (what : String) {c : Cursor}
    (h : c.depth + room = limit.toNat) :
    bodyWithin limit room what c = (do
      let brace ← expect (.delimiter .leftBrace) s!"to open {what}"
      let instructions ← deeper do
        if limit < (← get).depth then throw (tooDeep what limit brace)
        else many (bodyStep (bodyWithin limit (room - 1)) what)
      skip
      return instructions : Parse (List Instruction)) c := by
  cases hbrace : expect (.delimiter .leftBrace) s!"to open {what}" c with
  | error e c₁ =>
    refine Eq.trans ?_ (bind_of_error hbrace _).symm
    cases room <;> exact bind_of_error hbrace _
  | ok brace c₁ =>
    have hdepth := depth_of_expect hbrace
    refine Eq.trans ?_ (bind_of_ok hbrace _).symm
    cases room with
    | zero =>
      have hfull : limit < (c₁.depth + 1 : Nat) := by omega
      refine (bind_of_ok hbrace _).trans (Eq.symm (bind_of_error ?_ _))
      refine (deeper_apply _ _).trans (Eq.trans (congrArg closed (congrFun (if_pos hfull) _)) ?_)
      rfl
    | succ room =>
      have hroom : ¬ limit < (c₁.depth + 1 : Nat) := by omega
      refine (bind_of_ok hbrace _).trans (bind_apply_congr ?_ _)
      refine (deeper_apply _ _).trans ((deeper_apply _ _).trans ?_).symm
      exact congrArg closed (congrFun (if_neg hroom) _)

/-! ## Rules -/

/-- A value made of what was read does not change how much was read. -/
theorem Progresses.map {p : Parse α} (f : α → β) (h : Progresses p) :
    Progresses (p >>= fun a => pure (f a)) := by
  intro c c' b hp hpeek
  obtain ⟨a, c₁, h₁, h₂⟩ := bind_eq_ok.mp hp
  cases h₂
  exact h h₁ hpeek

theorem halts_block (limit : Int) : Halts (block limit) := by
  have heq : block limit = look fun w => w.elim
      (throw ⟨.noTokens, "No token provided.", none, 0, 0⟩) fun w => blockOf limit w.kind := by
    funext c
    rw [look]
    cases hc : c.peek with
    | none =>
      rw [Cursor.front_of_none hc, Option.elim_none, block, next_bind_apply, hc,
        Cursor.advance_of_peek_none hc]
    | some t =>
      rw [Cursor.front_of_some hc, Option.elim_some, Token.kind_terminal, block_of_some limit hc]
  rw [heq]
  refine .look fun w => ?_
  cases w with
  | none => exact fun c => .fail c fun c => ⟨_, by decide, .inl rfl⟩
  | some w => exact (predictive_blockOf limit w.kind).halts

theorem progresses_block (limit : Int) : Progresses (block limit) := by
  intro c c' b hb hpeek
  obtain ⟨t, ht⟩ := Option.ne_none_iff_exists'.mp hpeek
  have hstep : blockStep limit c = .ok (some b) c' := by
    simp only [blockStep, peek_bind_apply, ht]
    rw [bind_of_ok hb, pure_apply]
  exact productive_blockStep limit hstep

/-- What spans an instruction behind some word uses up a token. -/
theorem length_lt_of_instructionSpan {k : Kind} {ts rest : List Terminal} {i : Instruction}
    (hne : ts ≠ []) (h : InstructionSpan (.mark k :: ts.tail) i rest) :
    rest.length < ts.length := by
  obtain ⟨w, us, rfl⟩ := List.exists_cons_of_ne_nil hne
  simpa using h.shorter

theorem progresses_creation : Progresses creation := by
  refine predictive_creation.progresses recognizes_creation ?_
  rintro ts i rest hne ⟨g, as, us, hts, ha, rfl⟩
  have hspan := InstructionSpan.create (g := g) ha
  rw [← hts] at hspan
  exact length_lt_of_instructionSpan hne hspan

theorem progresses_branch (limit : Int) : Progresses (branch (body limit)) := by
  refine (predictive_branch (predictive_body limit)).progresses
    (recognizes_branch (recognizes_body limit)) ?_
  rintro ts i rest hne ⟨c, ms, b, hc, ⟨hb, -⟩, rfl⟩
  exact length_lt_of_instructionSpan hne (.branch hc hb)

theorem progresses_foreach (limit : Int) : Progresses (foreach (body limit)) := by
  refine (predictive_foreach (predictive_body limit)).progresses
    (recognizes_foreach (recognizes_body limit)) ?_
  rintro ts i rest hne ⟨n, us, ns, ms, cs, ks, b, hts, hns, hcs, ⟨hb, -⟩, rfl⟩
  have hspan := InstructionSpan.foreach (n := n) hns hcs hb
  rw [← hts] at hspan
  exact length_lt_of_instructionSpan hne hspan

theorem progresses_loop (limit : Int) : Progresses (loop (body limit)) := by
  refine (predictive_loop (predictive_body limit)).progresses
    (recognizes_loop (recognizes_body limit)) ?_
  rintro ts i rest hne ⟨s, ms, c, ks, p, js, b, hs, hc, hp, ⟨hb, -⟩, rfl⟩
  exact length_lt_of_instructionSpan hne (.loop hs hc hp hb)

theorem progresses_body (limit : Int) (what : String) : Progresses (body limit what) :=
  (predictive_body limit what).progresses (recognizes_body limit what) fun _ h => h.1.shorter

theorem progresses_program (limit : Int) : Progresses (program limit) := by
  refine Progresses.map _ ((predictive_blocks limit).progresses (recognizes_blocks limit) ?_)
  rintro ts bs rest hne ⟨-, rfl⟩
  exact List.length_pos_of_ne_nil hne

end Parse

namespace Rule

/-- **Every rule halts.** -/
theorem halts (limit : Int) (r : Rule) : Parse.Halts (r.parse limit) := by
  cases r with
  | program => exact ((Parse.predictive_program limit).map _).halts
  | block => exact (Parse.halts_block limit).map _
  | data => exact (Parse.predictive_data.map _).halts
  | group => exact (Parse.predictive_group.map _).halts
  | action => exact ((Parse.predictive_action limit).map _).halts
  | run => exact ((Parse.predictive_run limit).map _).halts
  | field => exact (Parse.predictive_field.map _).halts
  | parameter => exact (Parse.predictive_parameter.map _).halts
  | fieldValue => exact (Parse.predictive_fieldValue.map _).halts
  | dataInstance => exact (Parse.predictive_dataInstance.map _).halts
  | instruction =>
    exact ((Parse.predictive_instructionWith (Parse.predictive_body limit)).map _).halts
  | create => exact (Parse.predictive_creation.map _).halts
  | declaration => exact (Parse.predictive_declaration.map _).halts
  | statement => exact (Parse.predictive_progression.map _).halts
  | branch => exact ((Parse.predictive_branch (Parse.predictive_body limit)).map _).halts
  | foreach => exact ((Parse.predictive_foreach (Parse.predictive_body limit)).map _).halts
  | loop => exact ((Parse.predictive_loop (Parse.predictive_body limit)).map _).halts
  | value => exact (Parse.predictive_value.map _).halts
  | expression => exact (Parse.predictive_expression.map _).halts
  | term => exact ((Parse.predictive_term none).map _).halts

/-- **Every rule makes progress.** -/
theorem progresses (limit : Int) (r : Rule) : Parse.Progresses (r.parse limit) := by
  cases r with
  | program => exact (Parse.progresses_program limit).map _
  | block => exact (Parse.progresses_block limit).map _
  | data =>
    exact (Parse.predictive_data.progresses Parse.recognizes_data
      fun _ h => h.shorter_behind).map _
  | group =>
    exact (Parse.predictive_group.progresses Parse.recognizes_group
      fun _ h => h.shorter_behind).map _
  | action =>
    exact ((Parse.predictive_action limit).progresses (Parse.recognizes_action limit)
      fun _ h => h.1.shorter_behind).map _
  | run =>
    exact ((Parse.predictive_run limit).progresses (Parse.recognizes_run limit)
      fun _ h => h.1.shorter_behind).map _
  | field => exact Parse.progresses_field.map _
  | parameter => exact Parse.progresses_parameter.map _
  | fieldValue => exact Parse.progresses_fieldValue.map _
  | dataInstance => exact Parse.progresses_dataInstance.map _
  | instruction =>
    exact ((Parse.predictive_instructionWith (Parse.predictive_body limit)).progresses
      (Parse.recognizes_instructionWith (Parse.recognizes_body limit))
      fun _ h => h.1.shorter).map _
  | create => exact Parse.progresses_creation.map _
  | declaration =>
    exact (Parse.predictive_declaration.progresses Parse.recognizes_declaration
      fun _ h => h.shorter).map _
  | statement =>
    exact (Parse.predictive_progression.progresses Parse.recognizes_progression
      fun _ h => h.shorter).map _
  | branch => exact (Parse.progresses_branch limit).map _
  | foreach => exact (Parse.progresses_foreach limit).map _
  | loop => exact (Parse.progresses_loop limit).map _
  | value =>
    exact (Parse.predictive_value.progresses Parse.recognizes_value fun _ h => h.shorter).map _
  | expression =>
    exact (Parse.predictive_expression.progresses Parse.recognizes_expression
      fun _ h => ExprSpan.shorter h).map _
  | term =>
    exact ((Parse.predictive_term none).progresses Parse.recognizes_term
      fun _ h => TermSpan.shorter h).map _

end Rule

namespace Parse

/-! ## Lists of items -/

/-- **A loop that succeeds** has been ended by its step. -/
theorem many_eq_ok {step : Parse (Option α)} (hstep : Productive step) {c c' : Cursor}
    {as : List α} (h : many step c = .ok as c') : ∃ d, step d = .ok none c' := by
  induction hn : c.rest.length using Nat.strongRecOn generalizing c as with
  | ind n ih =>
    subst hn
    cases hs : step c with
    | error e c₁ =>
      rw [many_of_error hs] at h
      cases h
    | ok o c₁ =>
      cases o with
      | none =>
        rw [many_of_none hs] at h
        cases h
        exact ⟨c, hs⟩
      | some a =>
        rw [many_of_some hs (hstep hs)] at h
        obtain ⟨as', c₂, h₁, h₂⟩ := bind_eq_ok.mp h
        cases h₂
        exact ih _ (hstep hs) h₁ rfl

/-- A list of items stops in front of the token that closes it. -/
theorem peek_of_separatedStep_none {close : Kind} {item : Parse α} {what : String} {c c' : Cursor}
    (h : separatedStep close item what c = .ok none c') : c'.peek ≠ none := by
  have hsees : ∀ {d : Cursor}, d.sees close = true → d.peek ≠ none := by
    intro d hd hnone
    simp [Cursor.sees, Cursor.peekKind, hnone] at hd
  have hitem : ∀ {d : Cursor}, (item >>= fun a => pure (some a) : Parse (Option α)) d ≠
      .ok none c' := by
    intro d hd
    obtain ⟨a, c₁, -, h₂⟩ := bind_eq_ok.mp hd
    cases h₂
  rw [separatedStep, sees_bind_apply] at h
  split at h
  · next hc =>
    cases h
    exact hsees hc
  · obtain ⟨t, c₁, h₁, h₂⟩ := bind_eq_ok.mp h
    rw [sees_bind_apply] at h₂
    split at h₂
    · rw [skip_bind_apply, sees_bind_apply] at h₂
      split at h₂
      · next hc =>
        cases h₂
        exact hsees hc
      · obtain ⟨t', c₂, h₃, h₄⟩ := bind_eq_ok.mp h₂
        exact absurd h₄ hitem
    · exact absurd h₂ hitem

/-- **A list of items makes progress** since it reads the token that closes it. -/
theorem progresses_separated (close : Kind) {item : Parse α} (what : String) (h : Halts item)
    (hitem : Progresses item) : Progresses (separated close item what) := by
  intro c c' as hp _
  obtain ⟨as', c₁, h₁, h₂⟩ := bind_eq_ok.mp hp
  rw [skip_bind_apply] at h₂
  cases h₂
  obtain ⟨d, hd⟩ := many_eq_ok (productive_separatedStep close what hitem) h₁
  have hitems := ((h.separatedSteps close what hitem).ahead h₁).length_rest_le
  have hclose := Cursor.length_rest_advance_lt (peek_of_separatedStep_none hd)
  exact Nat.lt_of_lt_of_le hclose hitems

/-! ## Calls -/

/-- What can be called by itself. -/
inductive Call where
  | rule (r : Rule)
  | body (what : String)
  | separated (close : Kind) (item : Rule) (what : String)
  deriving DecidableEq, Repr, Inhabited

namespace Call

/-- Parses what is called to its nodes, when at most `limit` bodies may be open at once. -/
def parse (limit : Int) : Call → Parse (List Node)
  | rule r => return [← r.parse limit]
  | body what => return (← Parse.body limit what).map .instruction
  | separated close item what => Parse.separated close (item.parse limit) what

/-- Where a call leaves off that is made from `c`. -/
def behind (limit : Int) (c : Cursor) (call : Call) : Cursor := leftAt (call.parse limit c)

/-- Where calls leave off that are made on the tokens one after another. -/
def behindAll (limit : Int) (tokens : List Token) (calls : List Call) : Cursor :=
  calls.foldl (behind limit) ⟨[], tokens, 0⟩

/-- **Every call halts.** -/
theorem halts (limit : Int) (call : Call) : Halts (call.parse limit) := by
  cases call with
  | rule r => exact (r.halts limit).map _
  | body what => exact ((predictive_body limit what).map _).halts
  | separated close item what =>
    exact (item.halts limit).separated close what (item.progresses limit)

/-- **Every call makes progress.** -/
theorem progresses (limit : Int) (call : Call) : Progresses (call.parse limit) := by
  cases call with
  | rule r => exact (r.progresses limit).map _
  | body what => exact (progresses_body limit what).map _
  | separated close item what =>
    exact progresses_separated close what (item.halts limit) (item.progresses limit)

variable {limit : Int} {tokens : List Token} {c : Cursor}

/-- **A call keeps the cursor sound**, be it a success or a failure. -/
theorem sound_behind (h : c.Sound tokens) (call : Call) : (call.behind limit c).Sound tokens :=
  h.ahead (call.halts limit c).ahead

/-- Calls keep the cursor sound. -/
theorem sound_behindAll (limit : Int) (tokens : List Token) (calls : List Call) :
    (behindAll limit tokens calls).Sound tokens := by
  refine List.foldlRecOn calls _ (Cursor.sound_start tokens) fun c hc call _ => ?_
  exact sound_behind hc call

/-- **A body is counted.** However calls were made before, a body that is called then counts the
open bodies and compares them with the limit, as all bodies inside it do: no body has been left
open, so its room is the whole limit. -/
theorem body_counts (limit : Int) (tokens : List Token) (calls : List Call) (what : String) :
    Parse.body limit what (behindAll limit tokens calls) = (do
      let brace ← expect (.delimiter .leftBrace) s!"to open {what}"
      let instructions ← deeper do
        if limit < (← get).depth then throw (tooDeep what limit brace)
        else many (bodyStep (bodyWithin limit (limit.toNat - 1)) what)
      skip
      return instructions : Parse (List Instruction)) (behindAll limit tokens calls) := by
  have hclosed := (sound_behindAll limit tokens calls).closed
  exact bodyWithin_counts limit limit.toNat what (by omega)

/-- **Calls keep the state sound.** However calls are made one after another, failing ones among
them, the next one has a run to its end, and no repetition in it has stalled. It leaves no body
open, and the cursor between the same tokens, not behind the place where it was made and not past
the first end mark. If it succeeds and there was a token in front, the cursor has moved on. -/
theorem state_sound (limit : Int) (tokens : List Token) (calls : List Call) (call : Call) :
    let c := behindAll limit tokens calls
    let c' := behindAll limit tokens (calls ++ [call])
    Runs (call.parse limit) c (call.parse limit c) ∧
      (∀ d, call.parse limit c ≠ .error stalled d) ∧
      c' = leftAt (call.parse limit c) ∧
      c'.depth = 0 ∧ c'.Within tokens ∧
      c.position ≤ c'.position ∧ c'.position ≤ Token.endPosition tokens ∧
      ((∃ ns, call.parse limit c = .ok ns c') → c.peek ≠ none → c.position < c'.position) := by
  intro c c'
  have hc' : c' = leftAt (call.parse limit c) := by
    simp only [c', c, behindAll, List.foldl_append, List.foldl_cons, List.foldl_nil, behind]
  have hrun := call.halts limit c
  have hsound : c.Sound tokens := sound_behindAll limit tokens calls
  have hsound' : c'.Sound tokens := sound_behindAll limit tokens (calls ++ [call])
  refine ⟨hrun, hrun.ne_stalled, hc', hsound'.closed, hsound'.within, ?_, hsound'.position_le, ?_⟩
  · rw [hc']
    exact hrun.ahead.position_le
  · rintro ⟨ns, hok⟩ hpeek
    exact hsound.position_lt hsound' (call.progresses limit hok hpeek)

/-- A body that is one too many is refused behind its brace, and is not left open by that; a list
of items called next is ended by the other brace. -/
theorem state_sound_refusedBody :
    behindAll 0 Program.emptyAction [rule .program] =
        ⟨(Program.emptyAction.take 3).reverse, Program.emptyAction.drop 3, 0⟩ ∧
      (behindAll 0 Program.emptyAction
        ([rule .program] ++ [separated (.delimiter .rightBrace) .field "fields"])).depth = 0 ∧
      (behindAll 0 Program.emptyAction [rule .program]).position <
        (behindAll 0 Program.emptyAction
          ([rule .program] ++ [separated (.delimiter .rightBrace) .field "fields"])).position := by
  have hrefused : behindAll 0 Program.emptyAction [rule .program] =
      ⟨(Program.emptyAction.take 3).reverse, Program.emptyAction.drop 3, 0⟩ := by cbv
  have hclosed : parse 0 (separated (.delimiter .rightBrace) .field "fields")
      (behindAll 0 Program.emptyAction [rule .program]) =
      .ok [] (behindAll 0 Program.emptyAction
        ([rule .program] ++ [separated (.delimiter .rightBrace) .field "fields"])) := by cbv
  have hpeek : (behindAll 0 Program.emptyAction [rule .program]).peek ≠ none := by
    rw [hrefused]
    decide
  obtain ⟨-, -, -, hdepth, -, -, -, hmoved⟩ := state_sound 0 Program.emptyAction [rule .program]
    (separated (.delimiter .rightBrace) .field "fields")
  exact ⟨hrefused, hdepth, hmoved ⟨[], hclosed⟩ hpeek⟩

end Call

end Parse

end BlockLang
