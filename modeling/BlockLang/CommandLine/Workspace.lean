import BlockLang.Text.LooseText

/-!
# Workspaces

What a run sees of the files around it: what is in a file that it reads, whether a file that it
writes can be opened, and whether an open file takes what is written to it. All three may fail, and
the reason is kept apart from anything the content says.
-/

namespace BlockLang.CommandLine

open BlockLang.Text

/-- Why a path does not lead to a file, or why the file does not take a content. -/
inductive FileError where
  /-- The path has no bytes. -/
  | unencodable
  /-- The path holds a null character. -/
  | nullCharacter
  /-- There is nothing of that name. -/
  | missing
  /-- The path goes on behind something that is no directory. -/
  | notDirectory
  /-- The path leads to a directory. -/
  | isDirectory
  /-- The path, or a name in it, is too long. -/
  | tooLong
  /-- There is no room left for the content. -/
  | full
  deriving DecidableEq, Repr, Inhabited

namespace FileError

/-- The message of an error that has one. -/
def message? : FileError → Option String
  | nullCharacter => some "embedded null byte"
  | _ => none

/-- Is it the system that tells the error? A path that cannot be asked for never comes there. -/
def isOfSystem : FileError → Bool
  | unencodable | nullCharacter => false
  | _ => true

end FileError

/-- The files that a run may read and write. -/
structure Workspace where
  /-- The content of the file that a path leads to. -/
  read : LooseText → Except FileError ByteArray
  /-- Why the file that a path leads to cannot be opened to be written, if it cannot. -/
  refusal? : LooseText → Option FileError
  /-- Why the file that was opened does not take a content, if it does not, and what is in it then.
  Opening it has emptied it. -/
  fault? : LooseText → ByteArray → Option (FileError × ByteArray)

end BlockLang.CommandLine
