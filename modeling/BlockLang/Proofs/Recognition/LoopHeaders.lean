import BlockLang.Proofs.Lookahead.Earliest
import BlockLang.Proofs.Tree.Parts

/-!
# The headers of loops over collections

The header of a loop over collections has two lists, the names and the collections. A name has to
follow the word of the loop, so there is one in every loop. The collections are read up to the brace
of the body, and nothing asks for a first one: a header that is over at its `in` is accepted, and
its loop has nothing to go through.

An `in` right in front of a brace tells such a header from others, except inside parentheses, where
a creation and a run pass over any token that is no symbol. So the loops without a collection can be
counted in the tokens.
-/

namespace BlockLang

/-! ## Bare headers -/

/-- **Bare headers**: how often `in` stands right in front of an opening brace, outside parentheses.
Parentheses do not nest, so what the first one encloses ends at the next closing one. -/
def bareHeaders : (enclosed : Bool) → List Terminal → Nat
  | _, [] => 0
  | true, w :: ws => bareHeaders (w ≠ .mark (.delimiter .rightParen)) ws
  | false, w :: ws =>
    (if w = .mark (.keyword .inWord) ∧ ws.head? = some (.mark (.delimiter .leftBrace)) then 1
      else 0) + bareHeaders (w = .mark (.delimiter .leftParen)) ws

section

variable {enclosed : Bool} {ws : List Terminal}

@[simp] theorem bareHeaders_symbol (s : String) :
    bareHeaders enclosed (.symbol s :: ws) = bareHeaders enclosed ws := by
  cases enclosed <;> simp [bareHeaders]

@[simp] theorem bareHeaders_operator (op : Operator) :
    bareHeaders enclosed (.mark (.operator op) :: ws) = bareHeaders enclosed ws := by
  cases enclosed <;> simp [bareHeaders]

/-- A parenthesis that encloses nothing yet. -/
@[simp] theorem bareHeaders_leftParen :
    bareHeaders false (.mark (.delimiter .leftParen) :: ws) = bareHeaders true ws := by
  simp [bareHeaders]

@[simp] theorem bareHeaders_rightParen :
    bareHeaders enclosed (.mark (.delimiter .rightParen) :: ws) = bareHeaders false ws := by
  cases enclosed <;> simp [bareHeaders]

/-- Delimiters other than parentheses. -/
@[simp] theorem bareHeaders_delimiter {d : Delimiter} (h : d ≠ .leftParen) (h' : d ≠ .rightParen) :
    bareHeaders enclosed (.mark (.delimiter d) :: ws) = bareHeaders enclosed ws := by
  cases enclosed <;> simp [bareHeaders, h, h']

/-- Words other than `in`. -/
@[simp] theorem bareHeaders_keyword {k : Keyword} (h : k ≠ .inWord) :
    bareHeaders enclosed (.mark (.keyword k) :: ws) = bareHeaders enclosed ws := by
  cases enclosed <;> simp [bareHeaders, h]

/-- The word `in` ends a bare header if a brace follows. -/
theorem bareHeaders_inWord :
    bareHeaders false (.mark (.keyword .inWord) :: ws) =
      (if ws.head? = some (.mark (.delimiter .leftBrace)) then 1 else 0) +
        bareHeaders false ws := by
  simp [bareHeaders]

/-- Inside parentheses. -/
theorem bareHeaders_enclosed {k : Kind} (h : k ≠ .delimiter .rightParen) :
    bareHeaders true (.mark k :: ws) = bareHeaders true ws := by
  simp [bareHeaders, h]

end

/-! ## What has no headers -/

/-- **What `X` spans has no bare header**, inside parentheses or outside them. -/
def Headless {α : Type} (enclosed : Bool) (X : Span α) : Prop :=
  ∀ ⦃ts a rest⦄, X ts a rest → bareHeaders enclosed ts = bareHeaders enclosed rest

namespace Headless

variable {α : Type} {X : Span α} {enclosed : Bool}

theorem many (h : Headless enclosed X) : Headless enclosed (ManySpan X) := by
  intro ts as rest hspan
  induction hspan with
  | nil => rfl
  | cons ha _ ih => rw [h ha, ih]

theorem comma (h : Headless enclosed X) : Headless enclosed (CommaSpan X) := by
  intro ts a rest hspan
  cases hspan with
  | plain ha => exact h ha
  | comma ha => simp [h ha]

theorem separated (h : Headless enclosed X) : Headless enclosed (SepSpan X) := by
  intro ts as rest hspan
  cases hspan with
  | plain has => exact h.comma.many has
  | comma has => simpa using h.comma.many has

theorem chain {admits : Operator → Bool} {X : Span Expr} (h : Headless enclosed X) :
    Headless enclosed (ChainSpan admits X) := by
  intro ts e rest hspan
  induction hspan with
  | one he => exact h he
  | more _ _ he ih => rw [ih, bareHeaders_operator, h he]

end Headless

section

variable {enclosed : Bool}

theorem headless_name : Headless enclosed NameSpan := by
  rintro ts s rest ⟨⟩
  simp

theorem headless_value : Headless enclosed ValueSpan := by
  intro ts s rest hspan
  cases hspan <;> simp

theorem headless_expr : Headless enclosed ExprSpan := by
  have hatom : Headless enclosed AtomSpan := by
    rintro ts e rest ⟨hv⟩
    exact headless_value hv
  exact hatom.chain.chain

theorem headless_assignment : Headless enclosed AssignmentSpan := by
  rintro ts d rest ⟨he⟩
  simp [headless_expr he]

theorem headless_declaration : Headless enclosed DeclarationSpan := by
  intro ts d rest hspan
  cases hspan with
  | plain hd => exact headless_assignment hd
  | letWord hd => simp [headless_assignment hd]

theorem headless_progression : Headless enclosed ProgressionSpan := by
  intro ts p rest hspan
  cases hspan with
  | letWord hd => simp [headless_assignment hd]
  | plain hd _ => exact headless_assignment hd
  | evaluate he => exact headless_expr he

/-- Between the arguments of a creation anything may stand, but it stands in parentheses. -/
theorem headless_arguments : Headless true ArgumentsSpan := by
  intro ts as rest hspan
  induction hspan with
  | nil => rfl
  | value hv _ ih => rw [headless_value hv, ih]
  | other hk _ ih => rw [bareHeaders_enclosed hk, ih]

/-- And so it does between the actions to run. -/
theorem headless_actions : Headless true ActionsSpan := by
  intro ts as rest hspan
  induction hspan with
  | nil => rfl
  | symbol _ ih => rw [bareHeaders_symbol, ih]
  | other hk _ ih => rw [bareHeaders_enclosed hk, ih]

theorem headless_field : Headless enclosed FieldSpan := by
  rintro ts f rest ⟨⟩
  simp

theorem headless_parameter : Headless enclosed ParameterSpan := by
  rintro ts p rest ⟨⟩
  simp

theorem headless_fieldValue : Headless enclosed FieldValueSpan := by
  rintro ts v rest ⟨⟩
  simp

theorem headless_dataInstance : Headless false DataInstanceSpan := by
  rintro ts d rest ⟨hvs⟩
  simp [headless_fieldValue.separated hvs]

end

/-- The word `in` and the collections behind it, up to the brace of the body. -/
theorem bareHeaders_collections {ms ks : List Terminal} {cs : List Expr}
    (h : ManySpan (CommaSpan ExprSpan) ms cs ks) (hk : StartsWith (.delimiter .leftBrace) ks) :
    bareHeaders false (.mark (.keyword .inWord) :: ms) =
      (if cs = [] then 1 else 0) + bareHeaders false ks := by
  rw [bareHeaders_inWord, headless_expr.comma.many h]
  cases h with
  | nil =>
    obtain ⟨us, rfl⟩ := hk
    rfl
  | cons he _ =>
    -- the first collection has a symbol or a comma in front, so no brace follows
    obtain ⟨w, us, rfl, hw, -⟩ := Parse.collection_front he
    simp [hw]

/-! ## Loops and their headers -/

/-- **Instructions and their headers**: every loop among the instructions has a name, and the loops
without a collection are as many as the bare headers of the terminals up to `rest`. -/
structure Headers (is : List Instruction) (ts rest : List Terminal) : Prop where
  named : ∀ i ∈ is, i.HasNames
  bare : bareHeaders false ts = is.countP (¬ ·.HasCollections) + bareHeaders false rest

namespace Headers

variable {is js : List Instruction} {i : Instruction} {ts ms rest : List Terminal}

/-- Nothing has no headers. -/
theorem nil (h : bareHeaders false ts = bareHeaders false rest) : Headers [] ts rest where
  named := by simp
  bare := by simp [h]

/-- An instruction whose header, if it has one, is not bare. -/
theorem single (hn : i.HasNames) (hc : i.HasCollections)
    (h : bareHeaders false ts = bareHeaders false rest) : Headers [i] ts rest where
  named := by simpa using hn
  bare := by simp [hc, h]

/-- Instructions one after the other. -/
theorem append (h : Headers is ts ms) (h' : Headers js ms rest) : Headers (is ++ js) ts rest where
  named := List.forall_mem_append.mpr ⟨h.named, h'.named⟩
  bare := by rw [h.bare, h'.bare, List.countP_append, Nat.add_assoc]

/-- What has no header may stand in front. -/
theorem behind (h : Headers is ms rest) (hts : bareHeaders false ts = bareHeaders false ms) :
    Headers is ts rest where
  named := h.named
  bare := hts.trans h.bare

end Headers

namespace Instruction

/-- The braces of a body have no header of their own. -/
theorem headers_of_body {b : List Instruction}
    (hinside : ∀ {ts rest}, ManySpan InstructionSpan ts b rest → Headers (allIn b) ts rest)
    {ts rest : List Terminal} (h : BodySpan ts b rest) : Headers (allIn b) ts rest := by
  cases h with
  | braces h =>
    have hclose : Headers [] (.mark (.delimiter .rightBrace) :: rest) rest := .nil (by simp)
    have hall := (hinside h).append hclose
    rw [List.append_nil] at hall
    exact hall.behind (by simp)

mutual

/-- **An instruction** has a bare header for every loop without a collection, at any depth. -/
theorem headers : ∀ (i : Instruction) {ts rest : List Terminal}, InstructionSpan ts i rest →
    Headers i.all ts rest
  | create group arguments, ts, rest, h => by
    cases h with
    | create ha => exact .single trivial trivial (by simp [headless_arguments ha])
  | declare d, ts, rest, h => by
    cases h with
    | declare hd => exact .single trivial trivial (by simp [headless_assignment hd])
  | branch condition body, ts, rest, h => by
    cases h with
    | @branch ts ms _ _ _ hc hb =>
      have hheader : Headers [branch condition body] (.mark (.keyword .ifWord) :: ts) ms :=
        .single trivial trivial (by simp [headless_expr hc])
      exact hheader.append (headers_of_body (fun h => inside_headers body h) hb)
  | foreach names collections body, ts, rest, h => by
    cases h with
    | @foreach ts ms ks _ n ns _ _ hns hcs hb =>
      have hheader : Headers [foreach (n :: ns) collections body]
          (.mark (.keyword .foreach) :: .symbol n :: ts) ks := by
        have hbare : bareHeaders false ts =
            (if collections = [] then 1 else 0) + bareHeaders false ks := by
          rw [headless_name.comma.many hns, bareHeaders_collections hcs hb.startsWith]
        exact ⟨by simp [HasNames], by cases collections <;> simp [HasCollections, hbare]⟩
      exact hheader.append (headers_of_body (fun h => inside_headers body h) hb)
  | loop start condition step body, ts, rest, h => by
    cases h with
    | @loop ts ms ks js _ _ _ _ _ hs hc hp hb =>
      have hheader :
          Headers [loop start condition step body] (.mark (.keyword .forWord) :: ts) js :=
        .single trivial trivial
          (by simp [headless_declaration hs, headless_expr hc, headless_progression hp])
      exact hheader.append (headers_of_body (fun h => inside_headers body h) hb)

theorem inside_headers : ∀ (b : List Instruction) {ts rest : List Terminal},
    ManySpan InstructionSpan ts b rest → Headers (allIn b) ts rest
  | [], ts, rest, h => by
    cases h
    exact .nil rfl
  | i :: is, ts, rest, h => by
    cases h with
    | cons hi his => exact (headers i hi).append (inside_headers is his)

end

theorem body_headers {b : List Instruction} {ts rest : List Terminal} (h : BodySpan ts b rest) :
    Headers (allIn b) ts rest :=
  headers_of_body (fun h => inside_headers b h) h

end Instruction

/-- **A block** has a bare header for every loop without a collection in it. -/
theorem Block.headers {ts rest : List Terminal} {b : Block} (h : BlockSpan ts b rest) :
    Headers b.instructions ts rest := by
  cases h with
  | data hfs => exact .nil (by simp [headless_field.separated hfs])
  | group hps hds =>
    exact .nil (by simp [headless_parameter.separated hps, headless_dataInstance.separated hds])
  | action hb => exact (Instruction.body_headers hb).behind (by simp)
  | run has hb => exact (Instruction.body_headers hb).behind (by simp [headless_actions has])

namespace Program

/-- **A program** has a bare header for every loop without a collection in it. -/
theorem headers_of_derives {ws : List Terminal} {p : Program} (h : Derives ws p) :
    Headers p.instructions ws [] := by
  have hblocks : ∀ {ts bs rest}, ManySpan BlockSpan ts bs rest →
      Headers (bs.flatMap Block.instructions) ts rest := by
    intro ts bs rest hspan
    induction hspan with
    | nil => exact .nil rfl
    | cons hb _ ih => exact (Block.headers hb).append ih
  exact hblocks h

/-- **The headers of the loops that were read.** Every loop over collections has a name. Those that
have no collection are as many as the bare headers in front of the first end mark, so all loops have
one exactly if no header is bare. -/
theorem ofTokens_headers (limit : Int) (ts : List Token) (p : Program)
    (h : ofTokens limit ts = .ok p) :
    (∀ i ∈ p.instructions, i.HasNames) ∧
      p.instructions.countP (¬ ·.HasCollections) =
        bareHeaders false (BlockLang.terminals (ts.takeWhile (·.kind ≠ .endOfInput))) ∧
      ((∀ i ∈ p.instructions, i.HasCollections) ↔
        bareHeaders false (BlockLang.terminals (ts.takeWhile (·.kind ≠ .endOfInput))) = 0) := by
  obtain ⟨us, vs, rfl, hus, hvs⟩ := exists_append_ends ts
  rw [takeWhile_append_ends hus hvs]
  rw [ofTokens_append_ends hvs] at h
  have hheaders := headers_of_derives ((ofTokens_eq_ok limit hus).mp h).1
  refine ⟨hheaders.named, hheaders.bare.symm, ?_⟩
  rw [hheaders.bare, bareHeaders, Nat.add_zero, List.countP_eq_zero]
  simp

/-- Tokens of `do f { foreach x in collections { body } }`, wherever they stand. -/
def loopOver (collections body : List Terminal) : List Token :=
  let front : List Terminal := [.mark (.keyword .doWord), .symbol "f",
    .mark (.delimiter .leftBrace), .mark (.keyword .foreach), .symbol "x", .mark (.keyword .inWord)]
  let back : List Terminal := [.mark (.delimiter .rightBrace), .mark (.delimiter .rightBrace)]
  (front ++ collections ++ .mark (.delimiter .leftBrace) :: body ++ back).map fun
    | .symbol s => ⟨.symbol, s, 0, 0⟩
    | .mark k => ⟨k, k.spelling, 0, 0⟩

/-- `create g(in {)`, which passes over a word and a brace. -/
def passingCreation : List Terminal :=
  [.mark (.keyword .create), .symbol "g", .mark (.delimiter .leftParen), .mark (.keyword .inWord),
    .mark (.delimiter .leftBrace), .mark (.delimiter .rightParen)]

/-- A loop over `xs` has its collection, whatever is passed over in its body. -/
theorem ofTokens_headers_passingCreation :
    ∃ p, ofTokens 200 (loopOver [.symbol "xs"] passingCreation) = .ok p ∧
      p.instructions = [.foreach ["x"] [.value "xs"] [.create "g" []], .create "g" []] ∧
      (∀ i ∈ p.instructions, i.HasNames) ∧ ∀ i ∈ p.instructions, i.HasCollections := by
  have h : ofTokens 200 (loopOver [.symbol "xs"] passingCreation) =
      .ok ⟨[.action "f" [.foreach ["x"] [.value "xs"] [.create "g" []]]]⟩ := by cbv
  obtain ⟨hnames, -, hiff⟩ := ofTokens_headers 200 _ _ h
  exact ⟨_, h, rfl, hnames, hiff.mpr (by decide)⟩

/-- **A loop over nothing**: `foreach x in { }` is accepted, and its loop has no collection. -/
theorem ofTokens_bareHeader :
    ∃ p, ofTokens 200 (loopOver [] []) = .ok p ∧ ∃ i ∈ p.instructions, ¬ i.HasCollections := by
  have h : ofTokens 200 (loopOver [] []) = .ok ⟨[.action "f" [.foreach ["x"] [] []]]⟩ := by cbv
  exact ⟨_, h, .foreach ["x"] [] [], by decide, by decide⟩

end Program

end BlockLang
