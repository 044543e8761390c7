import BlockLang.Source.Render
import BlockLang.Text.Numeral

/-!
# Options

The arguments of the command line: one source, and options before or after it. A long option may be
shortened as long as it stays unambiguous and may take its value after an equals sign; short options
may be joined, the last of them directly followed by its value. Two hyphens end the options.

An argument that starts with a hyphen is nevertheless no option if it is a hyphen alone, if it looks
like a negative number, or if it holds a space and no option begins it.

What is joined to an option is read by one of two sets of rules. They differ in the value that is
two hyphens, in an equals sign behind a short option, and in a joined letter that is no option.
-/

namespace BlockLang.CommandLine

open BlockLang.Text

/-- An option. -/
inductive Flag where
  | help | string | format | out | keywords | verbose
  deriving DecidableEq, Repr, Inhabited

namespace Flag

/-- Does the option need a value? -/
def takesValue : Flag → Bool
  | format | out | keywords => true
  | help | string | verbose => false

/-- The letters of the short options. -/
def letters : List (Char × Flag) :=
  [('h', help), ('s', string), ('f', format), ('o', out), ('k', keywords), ('v', verbose)]

/-- The words of the long options. -/
def words : List (String × Flag) :=
  [("help", help), ("string", string), ("format", format), ("out", out), ("keywords", keywords),
    ("verbose", verbose)]

/-- The short option of a letter. -/
def ofLetter? (p : Point) : Option Flag := p.char?.bind fun c => letters.lookup c

/-- The long options that a word may stand for: the one it names, or all that it begins. -/
def candidates (word : LooseText) : List Flag :=
  match words.find? fun w => LooseText.ofString w.1 == word with
  | some (_, flag) => [flag]
  | none => (words.filter fun w => word.isPrefixOf w.1).map (·.2)

end Flag

/-- The options that were given. -/
structure Options where
  source : LooseText
  /-- Is the source a text itself, rather than the name of a file? -/
  isString : Bool := false
  form : OutputForm := .outline
  out : Option LooseText := none
  keywords : Option LooseText := none
  verbose : Bool := false
  deriving DecidableEq, Repr, Inhabited

/-- Why the arguments do not lead to a run. -/
inductive Usage where
  /-- Help was asked for. -/
  | help
  /-- The arguments make no sense. -/
  | wrong
  deriving DecidableEq, Repr, Inhabited

/-- The exit status for arguments that do not lead to a run. -/
def Usage.status : Usage → Nat
  | help => 0
  | wrong => 2

/-- Something that reads arguments. -/
abbrev ArgumentParser := List LooseText → Except Usage Options

/-! ## Telling options from other arguments -/

/-- What an argument is taken for. -/
inductive Argument where
  /-- The source, or the value of an option. -/
  | positional (s : LooseText)
  /-- The two hyphens that end the options. -/
  | separator
  /-- An option that does not exist. -/
  | unknown
  /-- A long option, with the value after its equals sign. -/
  | long (flag : Flag) (value : Option LooseText)
  /-- A short option and what is joined to it, which may be behind an equals sign. -/
  | short (flag : Flag) (assigned : Bool) (joined : List Point)
  deriving DecidableEq, Repr, Inhabited

/-- Is the point a decimal digit? -/
def isDecimalPoint (p : Point) : Bool := p.char?.any isDecimal

/-- Is a text a hyphen and digits, perhaps with a point before the last of them? One line feed at
the end does no harm. -/
def looksNegative : List Point → Bool
  | .char '-' :: ps =>
    let ps := if ps.getLast? = some (.char '\n') then ps.dropLast else ps
    match ps.dropWhile isDecimalPoint with
    | [] => !ps.isEmpty
    | .char '.' :: places => !places.isEmpty && places.all isDecimalPoint
    | _ => false
  | _ => false

/-- What an argument that begins no option is taken for. -/
def stray (s : LooseText) : Argument :=
  if looksNegative s.points || s.points.contains (.char ' ') then .positional s else .unknown

/-- The word before the first equals sign, and the value after it. -/
def splitValue (ps : List Point) : LooseText × Option LooseText :=
  match ps.dropWhile (· != .char '=') with
  | [] => (⟨ps⟩, none)
  | _ :: value => (⟨ps.takeWhile (· != .char '=')⟩, some ⟨value⟩)

/-- What an argument is taken for; an ambiguous option is an error. -/
def classify (s : LooseText) : Except Usage Argument :=
  match s.points with
  | [.char '-', .char '-'] => .ok .separator
  | .char '-' :: .char '-' :: ps =>
    let (word, value) := splitValue ps
    match Flag.candidates word with
    | [] => .ok (stray s)
    | [flag] => .ok (.long flag value)
    | _ => .error .wrong
  | .char '-' :: p :: ps =>
    match Flag.ofLetter? p, ps with
    | some flag, .char '=' :: ps => .ok (.short flag true ps)
    | some flag, ps => .ok (.short flag false ps)
    | none, _ => .ok (stray s)
  | _ => .ok (.positional s)

/-- Arguments up to the separator are told apart; those behind it are no options. -/
def classifyAll : List LooseText → Except Usage (List Argument)
  | [] => .ok []
  | s :: rest => do
    match ← classify s with
    | .separator => return .separator :: rest.map .positional
    | a => return a :: (← classifyAll rest)

/-! ## Reading options -/

/-- The rules for what is joined to an option. -/
inductive Rules where
  /-- A value that is two hyphens takes back what the option was given before. An equals sign behind
  the first letter is passed over, any other one belongs to the value; a letter that is no option is
  an error. -/
  | older
  /-- A value is what it is. An equals sign is passed over behind any letter, but only an option
  that needs a value may have one. A letter that is no option has no place; the options before it
  count. -/
  | newer
  deriving DecidableEq, Repr, Inhabited

/-- The options so far. -/
structure Draft where
  source : Option LooseText := none
  options : Options := ⟨⟨[]⟩, false, .outline, none, none, false⟩
  /-- Was there an argument that has no place? -/
  surplus : Bool := false
  deriving DecidableEq, Repr, Inhabited

/-- An option with its value, which is empty if it needs none. -/
abbrev Setting := Flag × LooseText

namespace Rules

/-- A value, unless it stands for none. -/
def actualValue? (r : Rules) (v : LooseText) : Option LooseText :=
  if r = .older ∧ v = .ofString "--" then none else some v

/-- The form of output that a value selects; no value selects the first. -/
def formOf? (r : Rules) (v : LooseText) : Option OutputForm :=
  match r.actualValue? v with
  | none => some .outline
  | some word => word.toString?.bind OutputForm.ofWord?

/-- Takes an option with its value into account. Help ends the reading at once. -/
def set (r : Rules) (d : Draft) : Setting → Except Usage Draft
  | (.help, _) => .error .help
  | (.string, _) => .ok { d with options := { d.options with isString := true } }
  | (.verbose, _) => .ok { d with options := { d.options with verbose := true } }
  | (.out, v) => .ok { d with options := { d.options with out := r.actualValue? v } }
  | (.keywords, v) => .ok { d with options := { d.options with keywords := r.actualValue? v } }
  | (.format, v) =>
    match r.formOf? v with
    | some form => .ok { d with options := { d.options with form := form } }
    | none => .error .wrong

/-- The options that are joined in one argument. -/
structure Cluster where
  settings : List Setting
  /-- The option at the end that awaits its value from the next argument. -/
  awaiting : Option Flag := none
  /-- Is there something behind the options that has no place? -/
  surplus : Bool := false
  deriving DecidableEq, Repr, Inhabited

/-- The options joined in one argument from `flag` on, with what is behind it: letters of further
options, or the value of the first that needs one. -/
def cluster (r : Rules) (flag : Flag) (assigned : Bool) : List Point → Except Usage Cluster
  | [] =>
    if flag.takesValue then
      .ok (if assigned then ⟨[(flag, ⟨[]⟩)], none, false⟩ else ⟨[], some flag, false⟩)
    else if assigned then .error .wrong
    else .ok ⟨[(flag, ⟨[]⟩)], none, false⟩
  | p :: ps =>
    if flag.takesValue then .ok ⟨[(flag, ⟨p :: ps⟩)], none, false⟩
    else if r = .newer ∧ (assigned ∨ p = .char '-') then .error .wrong
    else
      match Flag.ofLetter? p, r, ps with
      | none, .older, _ => .error .wrong
      | none, .newer, _ => .ok ⟨[(flag, ⟨[]⟩)], none, true⟩
      | some next, .newer, .char '=' :: ps => (cluster r next true ps).map (behind flag)
      | some next, _, ps => (cluster r next false ps).map (behind flag)
where
  /-- What is behind an option without a value. -/
  behind (flag : Flag) (c : Cluster) : Cluster := { c with settings := (flag, ⟨[]⟩) :: c.settings }

/-- Takes options with their values into account, from left to right. -/
def setAll (r : Rules) (d : Draft) (settings : List Setting) : Except Usage Draft :=
  settings.foldlM r.set d

/-- Reads the arguments from left to right. The separator may stand before or right behind the
source; all else that has no place is surplus. -/
def readArguments (r : Rules) (d : Draft) : List Argument → Except Usage Draft
  | [] => .ok d
  | .positional s :: rest =>
    match d.source with
    | some _ => readArguments r { d with surplus := true } rest
    | none =>
      match rest with
      | .separator :: rest => readArguments r { d with source := some s } rest
      | rest => readArguments r { d with source := some s } rest
  | .separator :: rest =>
    match d.source, rest with
    | none, .positional s :: rest => readArguments r { d with source := some s } rest
    | _, rest => readArguments r { d with surplus := true } rest
  | .unknown :: rest => readArguments r { d with surplus := true } rest
  | .long flag none :: rest =>
    if flag.takesValue then
      match rest with
      | .positional v :: rest => do readArguments r (← r.set d (flag, v)) rest
      | _ => .error .wrong
    else do readArguments r (← r.set d (flag, ⟨[]⟩)) rest
  | .long flag (some v) :: rest =>
    if flag.takesValue then do readArguments r (← r.set d (flag, v)) rest
    else .error .wrong
  | .short flag assigned joined :: rest =>
    match r.cluster flag assigned joined with
    | .error u => .error u
    | .ok c =>
      let d := { d with surplus := d.surplus || c.surplus }
      match c.awaiting, rest with
      | none, rest => do readArguments r (← r.setAll d c.settings) rest
      | some last, .positional v :: rest => do
        readArguments r (← r.setAll d (c.settings ++ [(last, v)])) rest
      | some _, _ => .error .wrong

/-- The options that the arguments give. -/
def parse (r : Rules) : ArgumentParser := fun argv => do
  let d ← r.readArguments {} (← classifyAll argv)
  match d.source, d.surplus with
  | some source, false => return { d.options with source := source }
  | _, _ => throw .wrong

end Rules

end BlockLang.CommandLine
