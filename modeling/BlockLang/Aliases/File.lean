import BlockLang.Aliases.Basic

/-!
# Keyword files

A keyword file is a JSON object in UTF-8 that maps lists of aliases, separated by commas, to names
of keywords.
-/

namespace BlockLang.Aliases

open BlockLang.Text

/-- The aliases in a list separated by commas, without surrounding blanks; empty ones are left
out. -/
def splitAliases (key : LooseText) : List LooseText :=
  (((Text.splitAt (.char ',') key.points).map (trim Point.isBlank)).filter (!·.isEmpty)).map (⟨·⟩)

/-- The configuration in the members of an object. Two keys with the same list of aliases are one
entry. -/
def Config.ofMembers (members : List (LooseText × Json)) : Config :=
  .ofEntries (members.map fun m => (.array ((splitAliases m.1).map .text), m.2))

/-- The members of the object in a keyword file, of which `none` means that it cannot be
opened. -/
def fileMembers (content : Option ByteArray) : Except ConfigError (List (LooseText × Json)) :=
  match content with
  | none => .error .unreadable
  | some bytes =>
    match String.fromUTF8? bytes with
    | none => .error .undecodable
    | some text =>
      match Json.read text.toList with
      | .error .malformed => .error .unreadable
      | .error (.longInteger digits) => .error (.longInteger digits)
      | .ok (.object members) => .ok members
      | .ok _ => .error .noObject

/-- Takes over the configuration in a keyword file. -/
def load (a : Aliases) (content : Option ByteArray) : Except ConfigError Aliases := do
  a.configure (.ofMembers (← fileMembers content))

/-- The canonical words and the aliases in a keyword file. -/
def ofFile (content : Option ByteArray) : Except ConfigError Aliases := canonical.load content

end BlockLang.Aliases
