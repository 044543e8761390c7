import BlockLang.Json.Reader
import BlockLang.Text.Identifier
import BlockLang.Text.Lines
import BlockLang.Token.Lexeme

/-!
# Aliases of keywords

A project may give the keywords further names. A configuration maps aliases, or groups of them, to
names of keywords. It is taken over as a whole or not at all: every name has to be one of a
keyword, every alias has to be an identifier, and no alias may stand for two keywords, be it in one
configuration or in several.
-/

namespace BlockLang

open BlockLang.Text

/-- An alias that stands for one keyword and is configured to stand for another. -/
structure Conflict where
  word : String
  existing : Keyword
  wanted : Keyword
  deriving DecidableEq, Repr, Inhabited

/-- The description of a conflict. -/
def Conflict.describe (c : Conflict) : String :=
  s!"'{c.word}' → conflict between {c.existing.name} and {c.wanted.name}"

/-- Why a configuration is not taken over. -/
inductive ConfigError where
  /-- The configuration is no table. -/
  | noTable
  /-- The keyword file cannot be opened or is no JSON text. -/
  | unreadable
  /-- The keyword file holds an integer with more digits than are admitted. -/
  | longInteger (digits : Nat)
  /-- The keyword file is not encoded in UTF-8. -/
  | undecodable
  /-- The keyword file holds something else than an object. -/
  | noObject
  /-- The name of a keyword is a list or an object. -/
  | compoundName (isList : Bool)
  /-- There is no keyword of this name. -/
  | unknownName (shown : LooseText)
  /-- Something else than an alias or a group of aliases. -/
  | invalidEntry (shown : String)
  /-- An alias that is no identifier. -/
  | invalidWord (word : LooseText)
  /-- Aliases that would stand for two keywords. -/
  | collisions (conflicts : List Conflict)
  deriving DecidableEq, Repr, Inhabited

namespace ConfigError

/-- What kind of failure an error is. -/
inductive Category where
  /-- A keyword configuration that is wrong. -/
  | configuration
  /-- A value of a type that can name nothing. -/
  | type
  /-- A number that cannot be read. -/
  | number
  /-- Bytes that are no text. -/
  | decoding
  deriving DecidableEq, Repr, Inhabited

/-- The category of an error. -/
def category : ConfigError → Category
  | compoundName _ => .type
  | longInteger _ => .number
  | undecodable => .decoding
  | _ => .configuration

/-- The message of an error. -/
def message : ConfigError → LooseText
  | noTable => "Configuration must be a dict"
  | unreadable => "Failed to load keyword file"
  | longInteger digits =>
    s!"Exceeds the limit ({Json.maxDigits} digits) for integer string conversion: value has " ++
      s!"{digits} digits; use sys.set_int_max_str_digits() to increase the limit"
  | undecodable => "Keyword file is not encoded in UTF-8"
  | noObject => "Keyword file must contain a JSON object"
  | compoundName isList => if isList then "unhashable type: 'list'" else "unhashable type: 'dict'"
  | unknownName shown => .ofString "Unknown keyword token name: " ++ shown
  | invalidEntry shown => s!"Invalid alias entry: {shown}"
  | invalidWord word => s!"Alias is not a valid word: {word.quoted}"
  | collisions _ => "Alias collision(s) detected"

/-- The conflicts that an error reports, described. -/
def conflicts : ConfigError → List String
  | collisions cs => cs.map Conflict.describe
  | _ => []

end ConfigError

/-- The aliases in force, and those that were configured. -/
structure Aliases where
  /-- What each word stands for. -/
  words : Table String Keyword := []
  /-- The aliases that have been configured, for reports. -/
  configured : Table String Keyword := []
  deriving DecidableEq, Repr, Inhabited

namespace Aliases

/-- A configuration: a group of aliases for every name of a keyword. -/
abbrev Config := List (Json × Json)

mutual

/-- The aliases of an entry: a text is one, and a group holds those of its entries in order. -/
def aliasesOf : Json → Except ConfigError (List LooseText)
  | .text s => .ok [s]
  | .array items => aliasesOfAll items
  | entry => .error (.invalidEntry entry.describe)

/-- The aliases of several entries in order. -/
def aliasesOfAll : List Json → Except ConfigError (List LooseText)
  | [] => .ok []
  | entry :: entries => do
    let first ← aliasesOf entry
    return first ++ (← aliasesOfAll entries)

end

/-- The keyword of a name. -/
def keywordOf : Json → Except ConfigError Keyword
  | .array _ => .error (.compoundName true)
  | .object _ => .error (.compoundName false)
  | .text s =>
    match s.toString?.bind Keyword.ofName? with
    | some k => .ok k
    | none => .error (.unknownName s)
  | name => .error (.unknownName name.plain)

/-- What a configuration comes to while it is read: new aliases, and conflicts. -/
structure Draft where
  words : Table String Keyword := []
  conflicts : List Conflict := []
  deriving DecidableEq, Repr, Inhabited

/-- Adds an alias to a draft. An alias that already stands for another keyword, in the draft or else
in force, is a conflict and is not added. -/
def assign (known : Table String Keyword) (k : Keyword) (d : Draft) (given : LooseText) :
    Except ConfigError Draft :=
  match given.toString?.filter fun word => isIdentifier word.toList with
  | none => .error (.invalidWord given)
  | some word =>
    match (Table.find? word d.words).orElse fun _ => Table.find? word known with
    | none => .ok { d with words := d.words.put word k }
    | some existing =>
      if existing = k then .ok { d with words := d.words.put word k }
      else .ok { d with conflicts := d.conflicts ++ [⟨word, existing, k⟩] }

/-- Adds a group of aliases and the name of their keyword to a draft. -/
def assignGroup (known : Table String Keyword) (d : Draft) (entry : Json × Json) :
    Except ConfigError Draft := do
  let k ← keywordOf entry.2
  let aliases ← aliasesOf entry.1
  aliases.foldlM (assign known k) d

/-- The aliases that a configuration adds to those known. -/
def draft (known : Table String Keyword) (config : Config) : Except ConfigError Draft :=
  config.foldlM (assignGroup known) {}

/-- Takes over a configuration. -/
def configure (a : Aliases) (config : Config) : Except ConfigError Aliases := do
  let d ← draft a.words config
  if d.conflicts.isEmpty then
    return ⟨a.words.putAll d.words, a.configured.putAll d.words⟩
  else throw (.collisions d.conflicts)

/-- The configuration in which a later entry for the same group replaces an earlier one. -/
def Config.ofEntries (entries : List (Json × Json)) : Config := Table.ofEntries entries

/-- Takes over a configuration given as one value, which has to be an object. -/
def configureWith (a : Aliases) : Json → Except ConfigError Aliases
  | .object members => a.configure (members.map fun m => (.text m.1, m.2))
  | _ => .error .noTable

/-- The canonical words of the keywords. -/
def canonicalWords : Table String Keyword := Keyword.all.map fun k => (k.spelling, k)

/-- The canonical words as the only aliases. -/
def canonical : Aliases := ⟨canonicalWords, canonicalWords⟩

/-- The words that are read as keywords. -/
def vocabulary (a : Aliases) : Vocabulary := a.words.map fun w => (w.1, .keyword w.2)

/-- The keyword token of an alias. -/
def token? (a : Aliases) (word : String) (line col : Int) : Option Token :=
  (Table.find? word a.words).map fun k => ⟨.keyword k, word, line, col⟩

/-- A line for every configured alias, in the order of their code points. -/
def report (a : Aliases) : String :=
  let sorted := a.configured.mergeSort fun v w => decide (v.1 ≤ w.1)
  unlines (sorted.map fun w => padLeft 12 w.1 ++ " → " ++ w.2.name)

/-- The words that do not stand for what they stand for canonically. -/
def changes (a : Aliases) : Table String Keyword :=
  a.words.filter fun w => Table.find? w.1 canonicalWords != some w.2

end Aliases

end BlockLang
