import BlockLang.CommandLine.Run

/-!
# The command line tool

The outer layer: it reads the arguments, the environment and the files that the options name, lets
the run decide, and carries out what it decided.
-/

namespace BlockLang.CommandLine

open BlockLang.Text

/-- A summary of the arguments. -/
def usageText : String :=
  "usage: blok [-h] [-s] [-f \x7btree,json,source\x7d] [-o OUTFILE] [-k JSONFILE] [-v] source\n"

/-- The content of a file. Whatever keeps it from being read counts as its absence. -/
def contentOf (path : LooseText) : IO (Except FileError ByteArray) := do
  try return .ok (← IO.FS.readBinFile path.filled)
  catch _ => return .error .missing

/-- The files that the options name, as they are before the run. -/
def workspaceFor (env : Option LooseText) (o : Options) : IO Workspace := do
  let source ← if o.isString then pure (.error .missing) else contentOf o.source
  let keywords ← match Run.keywordFile env o with
    | none => pure (.error .missing)
    | some path => contentOf path
  return ⟨fun path => if !o.isString && path == o.source then source else keywords,
    fun _ => none, fun _ _ => none⟩

/-- Carries out what a run decided. -/
def Report.perform (r : Report) : IO UInt32 := do
  let stdout ← IO.getStdout
  let stderr ← IO.getStderr
  stdout.putStr r.stdout
  stderr.putStr r.stderr
  let status : UInt32 := match r.ending with
    | .status code => code.toUInt32
    | .failure _ => 1
  if let .failure f := r.ending then
    stderr.putStrLn (f.message?.getD "A file cannot be read or written.")
  match r.written with
  | none => return status
  | some (path, content) =>
    try
      IO.FS.writeBinFile path.filled content
      return status
    catch _ =>
      stderr.putStrLn "A file cannot be written."
      return 1

end BlockLang.CommandLine

open BlockLang.CommandLine BlockLang.Text in
/-- Runs the tool. -/
def main (argv : List String) : IO UInt32 := do
  match Rules.newer.parse (argv.map .ofString) with
  | .error u =>
    let stream ← match u with
      | .help => IO.getStdout
      | .wrong => IO.getStderr
    stream.putStr usageText
    return u.status.toUInt32
  | .ok o =>
    let env := (← IO.getEnv keywordVariable).map LooseText.ofString
    let w ← workspaceFor env o
    (run w env o).perform
