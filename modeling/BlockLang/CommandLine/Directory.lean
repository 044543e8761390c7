import BlockLang.CommandLine.Run

/-!
# Runs in a directory

A directory of files without further directories in it. Runs see the files of the directory, and
what they write is a new file or replaces one. Names are sequences of bytes.

A path is followed name by name. Empty names and a single point stay where they are, two points
leave the directory, and so does a slash at the front. Outside, nothing is known to exist but two
devices: one that is empty and takes everything, and one that is full and takes nothing. The first
name that leads nowhere decides why the path fails.
-/

namespace BlockLang.CommandLine

open BlockLang.Text

/-- A name or a path as the system has it. -/
abbrev Bytes := List UInt8

/-- The bytes of a text. -/
def bytesOf (s : String) : Bytes := s.toList.flatMap String.utf8EncodeChar

/-- The files of a directory, each with its name and its content. -/
abbrev Directory := Table Bytes ByteArray

/-- A device outside of every directory. -/
inductive Device where
  | null | full
  deriving DecidableEq, Repr, Inhabited

/-- The device of a name. -/
def Device.ofName? (name : Bytes) : Option Device :=
  if name = bytesOf "null" then some null else if name = bytesOf "full" then some full else none

/-- Where the following of a path has come to. -/
inductive Standpoint where
  /-- The directory of the run. -/
  | here
  /-- The directory above all others. -/
  | root
  /-- The directory of the devices. -/
  | devices
  /-- Some directory of which nothing is known. -/
  | elsewhere
  deriving DecidableEq, Repr, Inhabited

/-- Where a path leads. -/
inductive Target where
  | directory
  /-- A name, seen from a standpoint; `slash` if a slash is behind it. -/
  | last (s : Standpoint) (name : Bytes) (slash : Bool)
  deriving DecidableEq, Repr, Inhabited

/-- Where the output goes that is written to a file. -/
inductive Destination where
  /-- The file of a name in the directory of the run. -/
  | entry (name : Bytes)
  | device (d : Device)
  /-- A new file outside of the directory. -/
  | outside
  deriving DecidableEq, Repr, Inhabited

namespace Directory

/-- The number of bytes that a name may have. -/
def maxName : Nat := 255

/-- The number of bytes that a path may have. -/
def maxPath : Nat := 4095

/-- The byte between the names in a path. -/
def slash : UInt8 := 0x2F

/-- The names in a path. -/
def names (path : Bytes) : List Bytes := (splitAt slash path).filter (!·.isEmpty)

/-- The standpoint that one of the two names leads to that stand for directories. -/
def dots? (s : Standpoint) (name : Bytes) : Option Standpoint :=
  if name = bytesOf "." then some s
  else if name = bytesOf ".." then
    match s with
    | .here | .elsewhere => some .elsewhere
    | .root | .devices => some .root
  else none

/-- Is the name, seen from a standpoint, that of the directory of the devices? -/
def isDevices (s : Standpoint) (name : Bytes) : Bool := s == .root && name == bytesOf "dev"

/-- Follows a name that has to lead to a directory; tells where it ends. -/
def enter (d : Directory) (s : Standpoint) (name : Bytes) : Except FileError Standpoint :=
  match dots? s name with
  | some s => .ok s
  | none =>
    if maxName < name.length then .error .tooLong
    else if isDevices s name then .ok .devices
    else if s = .here ∧ (Table.find? name d).isSome ∨
        s = .devices ∧ (Device.ofName? name).isSome then .error .notDirectory
    else .error .missing

/-- Follows a path up to its last name. -/
def target (d : Directory) (path : LooseText) : Except FileError Target := do
  match path.bytes? with
  | none => throw .unencodable
  | some bytes =>
    if bytes.contains 0 then throw .nullCharacter
    if bytes.isEmpty then throw .missing
    if maxPath < bytes.length then throw .tooLong
    let ns := names bytes
    match ns.getLast? with
    | none => return .directory
    | some name =>
      let s ← ns.dropLast.foldlM d.enter (if bytes.head? = some slash then .root else .here)
      if (dots? s name).isSome || isDevices s name then return .directory
      return .last s name (bytes.getLast? == some slash)

/-- What can be read under a name. To read the full device would never end. -/
def content? (d : Directory) (name : Bytes) : Standpoint → Option ByteArray
  | .here => Table.find? name d
  | .devices => if Device.ofName? name = some .null then some .empty else none
  | .root | .elsewhere => none

/-- The content of the file that a path leads to. -/
def read (d : Directory) (path : LooseText) : Except FileError ByteArray := do
  match ← d.target path with
  | .directory => throw .isDirectory
  | .last s name slash =>
    if maxName < name.length then throw .tooLong
    match d.content? name s with
    | none => throw .missing
    | some content => if slash then throw .notDirectory else return content

/-- Where the output goes that is written under a path. -/
def destination (d : Directory) (path : LooseText) : Except FileError Destination := do
  match ← d.target path with
  | .directory => throw .isDirectory
  | .last s name slash =>
    if slash then throw .isDirectory
    if maxName < name.length then throw .tooLong
    match s with
    | .here => return .entry name
    | .devices => (Device.ofName? name).elim (throw .missing) fun device => return .device device
    | .root | .elsewhere => return .outside

/-- What a run sees of the directory. -/
def workspace (d : Directory) : Workspace where
  read := d.read
  refusal? path :=
    match d.destination path with
    | .ok _ => none
    | .error e => some e
  fault? path _ :=
    match d.destination path with
    | .ok (.device .full) => some (.full, .empty)
    | _ => none

/-- The file of the directory that a run has opened to be written, with its content in the end. -/
def written? (d : Directory) (report : Report) : Option (Bytes × ByteArray) :=
  report.written.bind fun (path, content) =>
    match d.destination path with
    | .ok (.entry name) => some (name, content)
    | _ => none

/-- The file written that is new or has changed, if there is one. -/
def changed? (d : Directory) (report : Report) : Option (Bytes × ByteArray) :=
  (d.written? report).filter fun (name, content) =>
    (Table.find? name d).all fun old => old.data != content.data

/-- The directory after a run. -/
def after (d : Directory) (report : Report) : Directory :=
  match d.written? report with
  | none => d
  | some (name, content) => Table.put name content d

end Directory

end BlockLang.CommandLine
