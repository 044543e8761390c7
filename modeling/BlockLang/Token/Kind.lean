/-!
# Kinds of tokens

The closed sets of keywords, delimiters and arithmetic operators, each with its name and its
canonical spelling, and the kinds that tokens are sorted into. A keyword table may introduce
further kinds under names of its own; the grammar uses none of them.
-/

namespace BlockLang

/-- The words that open a block or an instruction, or stand inside one. -/
inductive Keyword where
  | data | group | doWord | run | ifWord | foreach | forWord | inWord | letWord | create
  deriving DecidableEq, Repr, Inhabited

namespace Keyword

/-- All keywords, in the order of the table of keywords. -/
def all : List Keyword :=
  [data, group, doWord, run, ifWord, foreach, forWord, inWord, letWord, create]

/-- The name of a keyword's kind. -/
def name : Keyword → String
  | data => "DATA"
  | group => "GROUP"
  | doWord => "DO"
  | run => "RUN"
  | ifWord => "IF"
  | foreach => "FOREACH"
  | forWord => "FOR"
  | inWord => "IN"
  | letWord => "LET"
  | create => "CREATE"

/-- The word that is read as a keyword when no aliases are configured. -/
def spelling : Keyword → String
  | data => "data"
  | group => "group"
  | doWord => "do"
  | run => "run"
  | ifWord => "if"
  | foreach => "foreach"
  | forWord => "for"
  | inWord => "in"
  | letWord => "let"
  | create => "create"

/-- The keyword of a name. -/
def ofName? (s : String) : Option Keyword := all.find? (·.name == s)

theorem ofName?_name (k : Keyword) : ofName? k.name = some k := by
  cases k <;> decide

theorem name_of_ofName? {s : String} {k : Keyword} (h : ofName? s = some k) : k.name = s := by
  simpa using List.find?_some h

end Keyword

/-- The single characters that separate and enclose. -/
inductive Delimiter where
  | leftBrace | rightBrace | leftParen | rightParen | comma | colon | equal | dot | semicolon
  deriving DecidableEq, Repr, Inhabited

namespace Delimiter

/-- All delimiters, in the order of the table of delimiters. -/
def all : List Delimiter :=
  [leftBrace, rightBrace, leftParen, rightParen, comma, colon, equal, dot, semicolon]

/-- The name of a delimiter's kind. -/
def name : Delimiter → String
  | leftBrace => "LBRACE"
  | rightBrace => "RBRACE"
  | leftParen => "LPAREN"
  | rightParen => "RPAREN"
  | comma => "COMMA"
  | colon => "COLON"
  | equal => "EQUAL"
  | dot => "DOT"
  | semicolon => "SEMICOLON"

/-- The character of a delimiter. -/
def char : Delimiter → Char
  | leftBrace => '\x7b'
  | rightBrace => '\x7d'
  | leftParen => '('
  | rightParen => ')'
  | comma => ','
  | colon => ':'
  | equal => '='
  | dot => '.'
  | semicolon => ';'

end Delimiter

/-- The arithmetic operators. -/
inductive Operator where
  | add | sub | mul | div | mod
  deriving DecidableEq, Repr, Inhabited

namespace Operator

/-- All operators, in the order of the table of operators. -/
def all : List Operator := [add, sub, mul, div, mod]

/-- The name of an operator's kind. -/
def name : Operator → String
  | add => "PLUS"
  | sub => "SUB"
  | mul => "MULT"
  | div => "DIV"
  | mod => "MOD"

/-- The character of an operator. -/
def char : Operator → Char
  | add => '+'
  | sub => '-'
  | mul => '*'
  | div => '/'
  | mod => '%'

/-- Does the operator bind as loosely as addition? The others bind tighter. -/
def isAdditive : Operator → Bool
  | add | sub => true
  | mul | div | mod => false

end Operator

/-- The kinds that tokens are sorted into. -/
inductive Kind where
  | keyword (k : Keyword)
  | delimiter (d : Delimiter)
  | operator (o : Operator)
  /-- Identifiers, numbers and quoted texts. -/
  | symbol
  /-- The mark after which a token list counts as finished. -/
  | endOfInput
  /-- A kind that only a keyword table knows. -/
  | other (name : String)
  deriving DecidableEq, Repr, Inhabited

namespace Kind

/-- The name of a kind. -/
def name : Kind → String
  | keyword k => k.name
  | delimiter d => d.name
  | operator o => o.name
  | symbol => "SYMBOL"
  | endOfInput => "EOF"
  | other name => name

/-- The kinds that the grammar uses, in the order of the tables. -/
def canonical : List Kind :=
  Keyword.all.map keyword ++ Delimiter.all.map delimiter ++ Operator.all.map operator ++ [symbol]

/-- The kind of a name; a name that is not in use gives a kind of its own. -/
def ofName (s : String) : Kind :=
  ((canonical ++ [endOfInput]).find? (·.name == s)).getD (other s)

/-- The one spelling of a kind that has one. -/
def spelling? : Kind → Option String
  | keyword k => some k.spelling
  | delimiter d => some d.char.toString
  | operator o => some o.char.toString
  | _ => none

/-- How a message refers to a kind: by its spelling, else by its name. -/
def spelling (k : Kind) : String := k.spelling?.getD k.name

/-- The kinds that are one character of punctuation, with their characters. -/
def punctuation : List (Char × Kind) :=
  Delimiter.all.map (fun d => (d.char, delimiter d)) ++
    Operator.all.map (fun o => (o.char, operator o))

/-- The kind of a character of punctuation. -/
def ofChar? (c : Char) : Option Kind := punctuation.lookup c

theorem ofChar?_delimiter (d : Delimiter) : ofChar? d.char = some (delimiter d) := by
  cases d <;> decide

theorem ofChar?_operator (o : Operator) : ofChar? o.char = some (operator o) := by
  cases o <;> decide

end Kind

end BlockLang
