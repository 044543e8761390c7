import BlockLang.Proofs.Lookahead.Calls

/-!
# Streams and cursors

A token stream holds a whole list and a place in it, a cursor what has been read and what is left.
A stream that stands in its list stands where a cursor does, and both hand out the same tokens, so
what a parse reads off a cursor it could read off the stream. Only a stream may stand beyond the end
of its list. From there it does not move, and it has no last token to tell.
-/

namespace BlockLang

/-! ## The stream of a cursor -/

namespace Cursor

variable {tokens : List Token} {c : Cursor}

/-- The stream that stands where a cursor does. -/
def stream (c : Cursor) : TokenStream := ⟨c.read.reverse ++ c.rest, c.position⟩

/-- A cursor within some tokens stands where their stream does. -/
theorem Within.stream_eq (h : c.Within tokens) : c.stream = ⟨tokens, c.position⟩ := by
  rw [stream, h]

theorem peek_stream (c : Cursor) : c.stream.peek = c.peek := by
  rw [TokenStream.peek, stream, List.drop_left' (by simp [position]), peek]

theorem last_stream (c : Cursor) : c.stream.last = .ok c.last := by
  obtain ⟨rd, rest, d⟩ := c
  cases rd with
  | nil => rfl
  | cons t rd => simp [TokenStream.last, stream, position, last]

/-- **The next token** of the stream is that of the cursor, and behind it they stand at one
place. -/
theorem next_stream (c : Cursor) : c.stream.next = (c.peek, c.advance.stream) := by
  rw [TokenStream.next, peek_stream]
  obtain ⟨rd, ts, d⟩ := c
  cases ts with
  | nil => rfl
  | cons t ts =>
    by_cases ht : t.kind = .endOfInput
    · simp [peek, advance, Token.first?, ht]
    · simp [peek, advance, Token.first?, ht, stream, position]

end Cursor

namespace TokenStream

variable {tokens : List Token} {s : TokenStream}

/-- **A stream in its list** is that of a cursor. -/
theorem exists_cursor (h : s.position ≤ s.tokens.length) : ∃ c : Cursor, c.stream = s :=
  ⟨⟨(s.tokens.take s.position).reverse, s.tokens.drop s.position, 0⟩, by
    simp [Cursor.stream, Cursor.position, h]⟩

/-! ## Beyond the end -/

/-- **Only beyond its list** a stream cannot tell its last token. -/
theorem last_eq_error_iff : s.last = .error () ↔ s.tokens.length < s.position := by
  constructor
  · intro h
    by_contra hle
    obtain ⟨c, rfl⟩ := exists_cursor (Nat.le_of_not_lt hle)
    rw [Cursor.last_stream] at h
    cases h
  · intro h
    have hzero : s.position ≠ 0 := by omega
    have hnone : s.tokens[s.position - 1]? = none := List.getElem?_eq_none (by omega)
    rw [last, if_neg hzero, hnone]

/-- Beyond its list a stream stays where it is. -/
theorem next_of_beyond (h : s.tokens.length ≤ s.position) : s.next = (none, s) := by
  have hpeek : s.peek = none := by rw [peek, List.drop_eq_nil_of_le h, Token.first?]
  rw [next, hpeek]

/-! ## Runs -/

/-- The stream when it has been asked for `n` tokens. -/
def after (s : TokenStream) : Nat → TokenStream
  | 0 => s
  | n + 1 => (s.after n).next.2

/-- A stream is never moved to another list. -/
theorem tokens_next (s : TokenStream) : s.next.2.tokens = s.tokens := by
  rw [next]
  cases s.peek <;> rfl

theorem tokens_after (s : TokenStream) (n : Nat) : (s.after n).tokens = s.tokens := by
  induction n with
  | zero => rfl
  | succ n ih => rw [after, tokens_next, ih]

/-- There is a token at every place in front of the first end mark. -/
theorem peek_of_lt {p : Nat} (h : p < Token.endPosition tokens) :
    (TokenStream.mk tokens p).peek = tokens[p]? := by
  have hlt : p < tokens.length := Nat.lt_of_lt_of_le h List.findIdx_le_length
  have hkind : tokens[p].kind ≠ .endOfInput := by simpa using List.not_of_lt_findIdx h
  rw [peek, List.drop_eq_getElem_cons hlt, Token.first?, if_neg hkind, List.getElem?_eq_getElem hlt]

/-- There is none at the first end mark, be it the end of the list. -/
theorem peek_endPosition (tokens : List Token) :
    (TokenStream.mk tokens (Token.endPosition tokens)).peek = none := by
  by_cases hlt : Token.endPosition tokens < tokens.length
  · have hkind : tokens[Token.endPosition tokens].kind = .endOfInput :=
      of_decide_eq_true (p := tokens[Token.endPosition tokens].kind = .endOfInput)
        (List.findIdx_getElem (w := hlt))
    rw [peek, List.drop_eq_getElem_cons hlt, Token.first?, if_pos hkind]
  · rw [peek, List.drop_eq_nil_of_le (Nat.le_of_not_lt hlt), Token.first?]

/-- **A stream from the start** moves one place at a time up to the first end mark, and stays
there. -/
theorem position_after (tokens : List Token) (n : Nat) :
    (TokenStream.after ⟨tokens, 0⟩ n).position = min n (Token.endPosition tokens) := by
  induction n with
  | zero => simp [after]
  | succ n ih =>
    have heq : TokenStream.after ⟨tokens, 0⟩ n = ⟨tokens, min n (Token.endPosition tokens)⟩ :=
      congrArg₂ TokenStream.mk (tokens_after _ n) ih
    rw [after, heq, next]
    rcases Nat.lt_or_ge n (Token.endPosition tokens) with hlt | hge
    · have hn : n < tokens.length := Nat.lt_of_lt_of_le hlt List.findIdx_le_length
      rw [Nat.min_eq_left hlt.le, peek_of_lt hlt, List.getElem?_eq_getElem hn,
        Nat.min_eq_left hlt]
    · rw [Nat.min_eq_right hge, peek_endPosition, Nat.min_eq_right (Nat.le_succ_of_le hge)]

end TokenStream

/-! ## Calls -/

/-- **Calls move a stream**: however calls are made one after another, the cursor they leave stands
where the stream of the tokens does that has been moved as far, and it sees what that stream
sees. -/
theorem Parse.Call.stream_behindAll (limit : Int) (tokens : List Token) (calls : List Call) :
    let c := behindAll limit tokens calls
    c.stream = TokenStream.after ⟨tokens, 0⟩ c.position ∧
      c.stream.next = (c.peek, c.advance.stream) ∧ c.stream.last = .ok c.last := by
  intro c
  have hsound : c.Sound tokens := sound_behindAll limit tokens calls
  have hafter : TokenStream.after ⟨tokens, 0⟩ c.position = ⟨tokens, c.position⟩ :=
    congrArg₂ TokenStream.mk (TokenStream.tokens_after _ _)
      ((TokenStream.position_after _ _).trans (Nat.min_eq_left hsound.position_le))
  exact ⟨hsound.within.stream_eq.trans hafter.symm, c.next_stream, c.last_stream⟩

end BlockLang
