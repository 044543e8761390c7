import BlockLang.CommandLine.Log
import BlockLang.CommandLine.Options
import BlockLang.CommandLine.Workspace
import BlockLang.Diagnostic.Context

/-!
# Runs

A run reads a source, takes it apart, and shows the program in one form of output. It says what goes
to the standard streams, what file is written, and how the run ends: with a status, or with a
failure that is no matter of the source. What goes out goes to one place only, and only if nothing
went wrong before. Even then it may not be taken there: a file that has been opened to be written is
left with what the failed writing made of it.

A source given as a text may be loose. It is read in disguise, and what is shown of it has the
halves in it again. A loose text can be put on the error stream, where every half has its code, but
it can be written nowhere else.
-/

namespace BlockLang.CommandLine

open BlockLang.Text

/-- The variable of the environment that may name a keyword file. -/
def keywordVariable : String := "BLOK_KEYWORDS"

/-- Why a run breaks off, other than for an error in the source or in the configuration. -/
inductive Failure where
  /-- The name of the source is not one of a source file. -/
  | unsupported
  /-- A file cannot be opened, or it does not take the output. -/
  | file (e : FileError)
  /-- A file is not encoded in UTF-8. -/
  | undecodable
  /-- A keyword file holds something that cannot be dealt with. -/
  | badKeyword (e : ConfigError)
  /-- The program has no source text. -/
  | unwritable (e : WriteError)
  /-- The output is no text that could be encoded in UTF-8. -/
  | unencodable
  deriving DecidableEq, Repr, Inhabited

/-- The message of a failure that has one. -/
def Failure.message? : Failure → Option String
  | unsupported => some "Only .blok files are supported."
  | file e => e.message?
  | undecodable | unencodable => none
  | badKeyword e => some e.message.escaped
  | unwritable e => some e.message

/-- How a run ends. -/
inductive Ending where
  | status (code : Nat)
  | failure (f : Failure)
  deriving DecidableEq, Repr, Inhabited

/-- What a run leaves. -/
structure Report where
  ending : Ending
  stdout : String := ""
  stderr : String := ""
  /-- The file that was opened to be written, with its content in the end. -/
  written : Option (LooseText × ByteArray) := none
  deriving Inhabited

/-- Why a run does not come to its output. -/
inductive Stop where
  /-- The source has an error. What is told of it stands in disguise. -/
  | source (e : SyntaxError) (c : ErrorContext) (s : StandIns)
  /-- The keyword configuration is wrong. -/
  | configuration (e : ConfigError)
  | failure (f : Failure)
  deriving DecidableEq, Repr, Inhabited

/-- What is told about a stop on the error stream. -/
def Stop.complaint : Stop → String
  | source e c s => (s.reveal (e.diagnostic (some c))).escaped ++ "\n"
  | configuration e =>
    s!"Keyword configuration error: {e.message.escaped}\n" ++
      String.join (e.conflicts.map fun c => s!"  {c}\n")
  | failure _ => ""

/-- How a run ends at a stop. -/
def Stop.ending : Stop → Ending
  | source .. | configuration _ => .status 1
  | failure f => .failure f

/-- A step of a run: it adds to the log and may stop the run. -/
abbrev Run := EStateM Stop String

namespace Run

/-- Adds to the log. -/
def log (s : String) : Run Unit := modify (· ++ s)

/-- The name and the text of the source. -/
def source (w : Workspace) (o : Options) : Run (LooseText × LooseText) := do
  if o.isString then return (.ofString "<string>", o.source)
  if !o.source.endsWith ".blok" then throw (.failure .unsupported)
  match w.read o.source with
  | .error e => throw (.failure (.file e))
  | .ok bytes =>
    match String.fromUTF8? bytes with
    | none => throw (.failure .undecodable)
    | some text => return (o.source, .ofString (String.ofList (universalLines text.toList)))

/-- The keyword file in use: the one given, or else the one of the environment. An empty name counts
as none. -/
def keywordFile (env : Option LooseText) (o : Options) : Option LooseText :=
  match o.keywords, env with
  | some path, env => if path.isEmpty then env.filter (!·.isEmpty) else some path
  | none, env => env.filter (!·.isEmpty)

/-- The stop for a keyword configuration that is not taken over. -/
def configStop (e : ConfigError) : Stop :=
  match e.category with
  | .configuration => .configuration e
  | .type | .number => .failure (.badKeyword e)
  | .decoding => .failure .undecodable

/-- The content of a keyword file; a path that cannot be asked for stops the run, any other that
leads to no file counts as a file that cannot be opened. -/
def keywordContent (w : Workspace) (path : LooseText) : Run (Option ByteArray) := do
  match w.read path with
  | .ok bytes => return some bytes
  | .error e => if e.isOfSystem then return none else throw (.failure (.file e))

/-- The words that are read as keywords. -/
def vocabulary (w : Workspace) (env : Option LooseText) (o : Options) : Run Vocabulary := do
  match keywordFile env o with
  | none => return .canonical
  | some path =>
    match Aliases.ofFile (← keywordContent w path) with
    | .error e => throw (configStop e)
    | .ok aliases =>
      log (Log.keywords aliases path)
      return aliases.vocabulary

/-- The program that a source denotes which is called `name` and reads `text` in disguise. -/
def program (v : Vocabulary) (name : LooseText) (text : String) (s : StandIns) : Run Program := do
  let stop (e : SyntaxError) : Stop := .source e (e.context name.escaped text) s
  match tokenize v text with
  | .error e => throw (stop e)
  | .ok tokens =>
    log (Log.tokenized text tokens)
    log (String.join ((Parse.blockHeads defaultLimit ⟨[], tokens, 0⟩).map Log.block))
    match Program.ofTokens defaultLimit tokens with
    | .error e => throw (stop e)
    | .ok p =>
      log (Log.blocks p)
      log (Log.program name p)
      return p

/-- The text of a program in the form asked for. -/
def output (o : Options) (s : StandIns) (p : Program) : Run LooseText := do
  match p.shown s o.form with
  | .error e => throw (.failure (.unwritable e))
  | .ok text =>
    if o.form = .source then log (Log.values p)
    return text ++ .ofString "\n"

/-- The place that the output goes to: the file asked for, or the output stream. -/
def place (w : Workspace) (o : Options) : Run (Option LooseText) := do
  match o.out with
  | none => return none
  | some path =>
    if path.isEmpty then return none
    match w.refusal? path with
    | none => return some path
    | some e => throw (.failure (.file e))

/-- The output of a run and its place. -/
def whole (w : Workspace) (env : Option LooseText) (o : Options) :
    Run (LooseText × Option LooseText) := do
  let (name, text) ← source w o
  let v ← vocabulary w env o
  let s := StandIns.of text
  let p ← program v name (s.hide text) s
  let output ← output o s p
  return (output, ← place w o)

end Run

/-- What a run leaves that has come to its output: the output stream takes every text, and a file
the texts in which it finds no fault. -/
def Report.ofOutput (w : Workspace) (log : String) (output : LooseText) (place : Option LooseText) :
    Report :=
  match place, output.toString? with
  | none, some text => ⟨.status 0, text, log, none⟩
  | none, none => ⟨.failure .unencodable, "", log, none⟩
  | some path, none => ⟨.failure .unencodable, "", log, some (path, .empty)⟩
  | some path, some text =>
    match w.fault? path text.toUTF8 with
    | none => ⟨.status 0, "", log, some (path, text.toUTF8)⟩
    | some (e, left) => ⟨.failure (.file e), "", log, some (path, left)⟩

/-- Runs the tool with options, in a workspace, with the name of a keyword file from the
environment. The log is shown if it is asked for. -/
def run (w : Workspace) (env : Option LooseText) (o : Options) : Report :=
  let shown (log : String) : String := if o.verbose then log else ""
  match Run.whole w env o "" with
  | .ok (output, place) log => .ofOutput w (shown log) output place
  | .error stop log => ⟨stop.ending, "", shown log ++ stop.complaint, none⟩

/-- Runs the tool with arguments; arguments that make no sense do not lead to a run. -/
def runArguments (parse : ArgumentParser) (w : Workspace) (env : Option LooseText)
    (argv : List LooseText) : Except Usage Report := do
  return run w env (← parse argv)

end BlockLang.CommandLine
