import BlockLang.Table
import BlockLang.Text.Letter
import BlockLang.Text.Numeral
import BlockLang.Text.Quoted
import BlockLang.Token.Basic

/-!
# Lexemes

How the front of a text is cut: layout (blanks and comments) first, then one lexeme. A lexeme is a
word, a number, a quoted text or one character of punctuation, and it is as long as its class
allows. A cut that finds no lexeme says what is wrong and how far it read. Whatever is cut, the
part cut off and the rest make up the text.
-/

namespace BlockLang

open BlockLang.Text

/-- Words that are read as something other than symbols. -/
abbrev Vocabulary := Table String Kind

namespace Vocabulary

/-- The canonical keywords. -/
def canonical : Vocabulary := Keyword.all.map fun k => (k.spelling, .keyword k)

/-- The kind of a word: its entry, or a symbol. -/
def kindOf (v : Vocabulary) (word : String) : Kind := (Table.find? word v).getD .symbol

end Vocabulary

/-! ## Layout -/

/-- Is `c` one of the four blanks of the language? -/
def isLayoutBlank (c : Char) : Bool := c == ' ' || c == '\t' || c == '\r' || c == '\n'

/-- A comment up to its line feed, and the rest. -/
def splitComment (cs : List Char) : List Char × List Char :=
  (cs.takeWhile (· != '\n'), cs.dropWhile (· != '\n'))

/-- The number of characters of layout at the front of a text, `inComment` saying whether it starts
inside a comment. -/
def layoutLength (inComment : Bool) : List Char → Nat
  | [] => 0
  | c :: cs =>
    if inComment then layoutLength (c != '\n') cs + 1
    else if isLayoutBlank c then layoutLength false cs + 1
    else if c == '#' then layoutLength true cs + 1
    else 0

/-- The layout at the front of a text, and the rest. -/
def splitLayout (cs : List Char) : List Char × List Char :=
  (cs.take (layoutLength false cs), cs.drop (layoutLength false cs))

/-! ## One lexeme -/

/-- Why a text has no lexeme at its front. -/
inductive Fault where
  /-- A number with a second point. -/
  | malformedNumber
  /-- A quoted text without its closing quote. -/
  | unterminatedText
  /-- A character that begins no lexeme. -/
  | strayCharacter (c : Char)
  deriving DecidableEq, Repr, Inhabited

/-- The message of a fault at a location. -/
def Fault.message (l : Location) : Fault → String
  | malformedNumber => s!"Invalid number format at line {l.line}, col {l.col}"
  | unterminatedText => s!"Unterminated string at line {l.line}, col {l.col}"
  | strayCharacter c =>
    s!"Unexpected character {quoted c.toString} at line {l.line}, col {l.col}"

/-- What was cut off the front of a text: a lexeme of some kind, or the part read up to a fault. -/
structure Cut where
  verdict : Except Fault Kind
  text : List Char
  rest : List Char

/-- May `c` begin a word? -/
def isWordStart (c : Char) : Bool := isLetter c || c == '_'

/-- May `c` continue a word? -/
def isWordPart (c : Char) : Bool := isLetter c || isNumeral c || c == '_'

/-- Does a text start with a point that a digit follows? -/
def startsFraction : List Char → Bool
  | '.' :: d :: _ => isDigit d
  | _ => false

/-- A number: digits, and once a point with digits after it. -/
def cutNumber (cs : List Char) : Cut :=
  match cs.dropWhile isDigit with
  | '.' :: d :: more =>
    if isDigit d then
      let rest := (d :: more).dropWhile isDigit
      ⟨if startsFraction rest then .error .malformedNumber else .ok .symbol,
        cs.takeWhile isDigit ++ '.' :: (d :: more).takeWhile isDigit, rest⟩
    else ⟨.ok .symbol, cs.takeWhile isDigit, '.' :: d :: more⟩
  | rest => ⟨.ok .symbol, cs.takeWhile isDigit, rest⟩

/-- The text up to and with the closing quote `q`, which a backslash hides, and the rest; all of
the text if the quote never comes. -/
def splitQuote (q : Char) : List Char → Bool × List Char × List Char
  | [] => (false, [], [])
  | ['\\'] => (false, ['\\'], [])
  | '\\' :: c :: cs =>
    let (closed, text, rest) := splitQuote q cs
    (closed, '\\' :: c :: text, rest)
  | c :: cs =>
    if c == q then (true, [c], cs)
    else
      let (closed, text, rest) := splitQuote q cs
      (closed, c :: text, rest)

/-- A quoted text after its opening quote `q`. -/
def cutQuoted (q : Char) (cs : List Char) : Cut :=
  let (closed, text, rest) := splitQuote q cs
  ⟨if closed then .ok .symbol else .error .unterminatedText, q :: text, rest⟩

/-- A word, whose kind the vocabulary knows. -/
def cutWord (v : Vocabulary) (cs : List Char) : Cut :=
  let word := cs.takeWhile isWordPart
  ⟨.ok (v.kindOf (String.ofList word)), word, cs.dropWhile isWordPart⟩

/-- The lexeme at the front of the text `c :: cs`. -/
def cutLexeme (v : Vocabulary) (c : Char) (cs : List Char) : Cut :=
  if isWordStart c then cutWord v (c :: cs)
  else if isDigit c then cutNumber (c :: cs)
  else if c == '\x22' || c == '\x27' then cutQuoted c cs
  else match Kind.ofChar? c with
    | some kind => ⟨.ok kind, [c], cs⟩
    | none => ⟨.error (.strayCharacter c), [], c :: cs⟩

end BlockLang
