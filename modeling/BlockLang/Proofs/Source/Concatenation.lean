import BlockLang.Proofs.Completion.Extends
import BlockLang.Proofs.Lookahead.Program
import BlockLang.Proofs.Token.Seam

/-!
# Programs one below the other

Nothing is carried over from one block to the next. So a source below another adds its blocks to
those of the other, and an error of it is found as many lines further down as it starts.
-/

namespace BlockLang

open Parse

namespace Token

@[simp] theorem kind_down (n : Int) (t : Token) : (t.down n).kind = t.kind := rfl

theorem first?_map_down (n : Int) (ts : List Token) :
    first? (ts.map (down n)) = (first? ts).map (down n) := by
  cases ts with
  | nil => rfl
  | cons t ts =>
    by_cases h : t.kind = .endOfInput <;> simp [first?, h]

end Token

theorem EndFree.map_down {ts : List Token} (h : EndFree ts) (n : Int) :
    EndFree (ts.map (Token.down n)) := by
  intro t ht
  obtain ⟨u, hu, rfl⟩ := List.mem_map.mp ht
  exact h u hu

namespace Cursor

/-- **The cursor `c'` stands where `c` stands, `n` lines further down**, behind the tokens `before`
as well. If `c` has read nothing yet, there is something to read. -/
structure Below (n : Int) (before : List Token) (c c' : Cursor) : Prop where
  rest : c'.rest = c.rest.map (Token.down n)
  read : c'.read = c.read.map (Token.down n) ++ before
  begun : c.read ≠ [] ∨ c.peek ≠ none

variable {n : Int} {before : List Token} {c c' : Cursor}

theorem Below.peek (h : Below n before c c') : c'.peek = c.peek.map (Token.down n) := by
  rw [Cursor.peek, h.rest, Token.first?_map_down, Cursor.peek]

theorem Below.front (h : Below n before c c') : c.front = c'.front := by
  rw [Cursor.front, Cursor.front, h.peek, Option.map_map]
  rfl

theorem Below.advance (h : Below n before c c') : Below n before c.advance c'.advance := by
  obtain ⟨rd, ts, d⟩ := c
  obtain ⟨rd', ts', d'⟩ := c'
  obtain ⟨hrest, hread, hbegun⟩ := h
  dsimp only at hrest hread
  subst hrest hread
  cases ts with
  | nil => exact ⟨rfl, rfl, hbegun⟩
  | cons t ts =>
    by_cases ht : t.kind = .endOfInput
    · simp only [Cursor.advance, List.map_cons, Token.kind_down, ht, if_true]
      exact ⟨rfl, rfl, hbegun⟩
    · rw [List.map_cons, Cursor.advance_cons ht, Cursor.advance_cons (by simpa using ht)]
      exact ⟨rfl, rfl, .inl (List.cons_ne_nil _ _)⟩

/-- A complaint is about the same token, or just behind the same one. -/
theorem Below.complaint (h : Below n before c c') (tag : SyntaxError.Tag)
    (message : String → String) (ended : String) :
    SyntaxError.Down n (c.complaint tag message ended) (c'.complaint tag message ended) := by
  have hpeek := h.peek
  cases hc : c.peek with
  | some t =>
    rw [hc, Option.map_some] at hpeek
    rw [Cursor.complaint, Cursor.complaint, hc, hpeek]
    exact ⟨rfl, rfl, rfl, fun _ => rfl⟩
  | none =>
    rw [hc, Option.map_none] at hpeek
    obtain ⟨u, us, hread⟩ := List.exists_cons_of_ne_nil (h.begun.resolve_right fun hne => hne hc)
    have hlast : c.last = some u := by rw [last, hread, List.head?_cons]
    have hlast' : c'.last = some (u.down n) := by rw [last, h.read, hread]; rfl
    rw [Cursor.complaint, Cursor.complaint, hc, hpeek]
    dsimp only
    rw [incomplete, incomplete, hlast, hlast']
    exact ⟨rfl, rfl, rfl, fun _ => rfl⟩

end Cursor

/-- **Reading further down** is the same. -/
theorem Parse.simulation_below (n : Int) (before : List Token) :
    Simulation (Cursor.Below n before) (SyntaxError.Down n) where
  front h := h.front
  advance h := h.advance
  depth _ h := ⟨h.rest, h.read, h.begun⟩
  complaint _ h := h.complaint _ _ _

namespace Program

/-- The blocks of a program may have tokens behind them, and are found in front of those. -/
theorem exists_many_blocks {limit : Int} {ts us : List Token} {p : Program}
    (hts : EndFree ts) (hus : EndFree us) (h : ofTokens limit ts = .ok p) :
    ∃ c' : Cursor, c'.rest = us ∧
      many (blockStep limit) ⟨[], ts ++ us, 0⟩ =
        foundBehind p.blocks (many (blockStep limit) c') := by
  have hall : EndFree (ts ++ us) := List.forall_mem_append.mpr ⟨hts, hus⟩
  obtain ⟨hderives, hdepth⟩ := (ofTokens_eq_ok limit hts).mp h
  have hspan : ManySpan (fun ts b rest => BlockSpan ts b rest ∧ b.depth ≤ limit.toNat)
      (terminals (ts ++ us)) p.blocks (terminals us) := by
    rw [terminals_append]
    exact manySpan_and.mpr ⟨hderives.append_blocks _, depth_le.mp hdepth⟩
  have hblock : ∀ {ts b rest}, BlockSpan ts b rest ∧ b.depth ≤ limit.toNat →
      ¬ ts = [] ∧ rest.length < ts.length := fun hb =>
    ⟨List.ne_nil_of_length_pos (Nat.zero_lt_of_lt hb.1.shorter), hb.1.shorter⟩
  obtain ⟨c', hsuf, hterminals, hmany⟩ := (recognizes_blockStep limit).many_items hblock
    (c := ⟨[], ts ++ us, 0⟩) hall hspan
  -- what is left is as long as `us`, and at the end of the same tokens
  have hlength : c'.rest.length = us.length := by
    rw [← length_terminals, hterminals, length_terminals]
  refine ⟨c', ?_, hmany⟩
  exact (List.suffix_of_suffix_length_le hsuf (List.suffix_append ts us) hlength.le).eq_of_length
    hlength

/-- **Tokens behind those of a program**, `n` lines further down than where they stand: they add
their blocks to the program, or their error is found. -/
theorem ofTokens_below {limit : Int} {ts us : List Token} {p : Program} (hts : EndFree ts)
    (hus : EndFree us) (h : ofTokens limit ts = .ok p) (n : Int) :
    (∃ q, ofTokens limit us = .ok q ∧
        ofTokens limit (ts ++ us.map (Token.down n)) = .ok ⟨p.blocks ++ q.blocks⟩) ∨
      ∃ e e', ofTokens limit us = .error e ∧
        ofTokens limit (ts ++ us.map (Token.down n)) = .error e' ∧ SyntaxError.Down n e e' := by
  cases us with
  | nil =>
    exact .inl ⟨⟨[]⟩, ofTokens_nil limit, by simpa using h⟩
  | cons u us =>
    obtain ⟨c', hrest, hmany⟩ := exists_many_blocks hts (hus.map_down n) h
    have hbelow : Cursor.Below n c'.read ⟨[], u :: us, 0⟩ c' := by
      refine ⟨hrest, rfl, .inr ?_⟩
      rw [Cursor.peek_cons (endFree_cons.mp hus).1]
      simp
    have hagree := (predictive_blocks limit).agree (simulation_below n c'.read) hbelow
    rw [ofTokens_eq_many, ofTokens_eq_many, hmany]
    generalize many (blockStep limit) ⟨[], u :: us, 0⟩ = x at hagree ⊢
    generalize many (blockStep limit) c' = y at hagree ⊢
    cases hagree with
    | ok _ => exact .inl ⟨_, rfl, rfl⟩
    | error he => exact .inr ⟨_, _, rfl, rfl, he⟩

/-- A source below one that denotes a program: its blocks are added, or its error is found. -/
theorem ofSource_below {limit : Int} {s : String} {p : Program}
    (h : ofSource .canonical limit s = .ok p) (t : String) :
    (∃ q, ofSource .canonical limit t = .ok q ∧
        ofSource .canonical limit (s ++ "\n" ++ t) = .ok ⟨p.blocks ++ q.blocks⟩) ∨
      ∃ e e', ofSource .canonical limit t = .error e ∧
        ofSource .canonical limit (s ++ "\n" ++ t) = .error e' ∧
        SyntaxError.Down (s.toList.count '\n' + 1) e e' := by
  cases hs : tokenize .canonical s with
  | error e =>
    rw [ofSource_of_tokenize_error hs] at h
    cases h
  | ok ts =>
    rw [ofSource_of_tokenize hs] at h
    rcases tokenize_below hs (t := t) with ⟨us, ht, hbelow⟩ | ⟨e, e', ht, hbelow, hdown⟩
    · rw [ofSource_of_tokenize ht, ofSource_of_tokenize hbelow]
      exact ofTokens_below (tokenRun_of_tokensFrom hs).endFree (tokenRun_of_tokensFrom ht).endFree
        h _
    · exact .inr ⟨e, e', ofSource_of_tokenize_error ht _, ofSource_of_tokenize_error hbelow _,
        hdown⟩

/-- **Programs concatenate.** Below a source that denotes a program, the blocks of another source
are added to it, and an error of the other source is found as many lines further down as there are
lines in front of it. -/
theorem ofSource_concatenated (limit : Int) (s t : String) (p : Program)
    (h : ofSource .canonical limit s = .ok p) :
    (∀ q, ofSource .canonical limit t = .ok q →
        ofSource .canonical limit (s ++ "\n" ++ t) = .ok ⟨p.blocks ++ q.blocks⟩) ∧
      ∀ e, ofSource .canonical limit t = .error e →
        ∃ e', ofSource .canonical limit (s ++ "\n" ++ t) = .error e' ∧ e'.tag = e.tag ∧
          e'.line = e.line + s.toList.count '\n' + 1 ∧ e'.col = e.col ∧
          (e.tag ≠ .lexical → e'.message = e.message) := by
  refine ⟨fun q hq => ?_, fun e he => ?_⟩
  · rcases ofSource_below h t with ⟨q', ht, hboth⟩ | ⟨e, e', ht, -, -⟩
    · rw [ht] at hq
      cases hq
      exact hboth
    · rw [ht] at hq
      cases hq
  · rcases ofSource_below h t with ⟨q, ht, -⟩ | ⟨e₁, e', ht, hboth, hdown⟩
    · rw [ht] at he
      cases he
    · rw [ht] at he
      cases he
      have hline := hdown.line
      exact ⟨e', hboth, hdown.tag, by omega, hdown.col, hdown.message⟩

/-- An action of two lines with a comment behind it. -/
def twoLines : String := "do f\n\x7b\x7d # a"

/-- Below it, another action is the second block, and one that lacks its body is refused as it would
be alone, two lines further down. -/
theorem ofSource_concatenated_lines :
    ofSource .canonical defaultLimit (twoLines ++ "\n" ++ "do g \x7b \x7d") =
        .ok ⟨[.action "f" [], .action "g" []]⟩ ∧
      ∃ e e', ofSource .canonical defaultLimit "do g" = .error e ∧
        ofSource .canonical defaultLimit (twoLines ++ "\n" ++ "do g") = .error e' ∧
        e'.tag = e.tag ∧ e'.line = e.line + 2 ∧ e'.col = e.col ∧ e'.message = e.message := by
  have hf : ofSource .canonical defaultLimit twoLines = .ok ⟨[.action "f" []]⟩ := by
    decide +kernel
  have hg : ofSource .canonical defaultLimit "do g \x7b \x7d" = .ok ⟨[.action "g" []]⟩ := by
    decide +kernel
  have he : ofSource .canonical defaultLimit "do g" = .error ⟨.incompleteInput,
      "Expected '\x7b' to open do body, got end of input.", none, 1, 5⟩ := by decide +kernel
  obtain ⟨hboth, -⟩ := ofSource_concatenated defaultLimit twoLines "do g \x7b \x7d" _ hf
  obtain ⟨-, hbelow⟩ := ofSource_concatenated defaultLimit twoLines "do g" _ hf
  obtain ⟨e', he', htag, hline, hcol, hmessage⟩ := hbelow _ he
  exact ⟨hboth _ hg, _, e', he, he', htag, hline, hcol, hmessage nofun⟩

end Program

end BlockLang
