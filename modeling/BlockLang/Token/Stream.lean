import BlockLang.Token.Basic

/-!
# Token streams

A stream is a token list with a place in it, which may also lie beyond the end. The tokens before
an end mark are handed out one by one; at the end mark, as at the end of the list, there is no next
token and the place no longer moves.
-/

namespace BlockLang

/-- The first token of a list, unless it is an end mark. -/
def Token.first? : List Token → Option Token
  | [] => none
  | t :: _ => if t.kind = .endOfInput then none else some t

/-- A place in a token list. -/
structure TokenStream where
  tokens : List Token
  position : Nat := 0
  deriving Inhabited

namespace TokenStream

/-- The next token, if there is one. -/
def peek (s : TokenStream) : Option Token := Token.first? (s.tokens.drop s.position)

/-- The next token, if there is one, and the stream behind it. -/
def next (s : TokenStream) : Option Token × TokenStream :=
  match s.peek with
  | none => (none, s)
  | some t => (some t, { s with position := s.position + 1 })

/-- Is there no next token? -/
def atEnd (s : TokenStream) : Bool := s.peek.isNone

/-- The token before the place. There is none at the start, and asking beyond the end fails. -/
def last (s : TokenStream) : Except Unit (Option Token) :=
  if s.position = 0 then .ok none
  else match s.tokens[s.position - 1]? with
    | some t => .ok (some t)
    | none => .error ()

end TokenStream

end BlockLang
