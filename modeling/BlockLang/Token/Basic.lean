import BlockLang.Location
import BlockLang.Token.Kind

/-!
# Tokens

A token is a kind, the raw text it was read from and the location of its first character. Tokens
that no text was read for are located at line and column zero.
-/

namespace BlockLang

/-- A token. -/
structure Token where
  kind : Kind
  value : String
  line : Int := 0
  col : Int := 0
  deriving DecidableEq, Repr, Inhabited

namespace Token

/-- A token whose text starts at the location `l`. -/
def located (kind : Kind) (value : String) (l : Location) : Token := ⟨kind, value, l.line, l.col⟩

/-- The mark at the end of a text that ends at the location `l`. -/
def endMark (l : Location) : Token := located .endOfInput Kind.endOfInput.name l

/-- A token as it is shown in a listing. -/
def describe (t : Token) : String := s!"Token({t.kind.name}, {t.value})"

end Token

end BlockLang
