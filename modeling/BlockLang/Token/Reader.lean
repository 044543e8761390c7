import BlockLang.Token.OfText

/-!
# Reading step by step

A reader holds a text and the place up to which it has been read, and moves on by single
characters, over layout, or token by token. A step that fails keeps the place it had reached.
-/

namespace BlockLang

/-- A place in a text: the number of characters read, and the location. -/
structure Reader where
  text : List Char
  position : Nat := 0
  location : Location := .start
  deriving Inhabited

/-- A step of a reader: it fails with an error, and moves the reader in any case. -/
abbrev ReadM := EStateM SyntaxError Reader

namespace Reader

/-- The characters that have not been read. -/
def rest (r : Reader) : List Char := r.text.drop r.position

/-- The reader after the characters `cs`. -/
def past (r : Reader) (cs : List Char) : Reader :=
  { r with position := r.position + cs.length, location := r.location.after cs }

/-- What is left behind a part of the text. -/
theorem rest_past {rd : Reader} {cs ds : List Char} (h : rd.rest = cs ++ ds) :
    (rd.past cs).rest = ds := by
  have hdrop : (rd.past cs).rest = rd.rest.drop cs.length := by
    simp [Reader.rest, past, List.drop_drop]
  rw [hdrop, h, List.drop_left]

/-- Has the whole text been read? -/
def atEnd (r : Reader) : Bool := r.text.length ≤ r.position

/-- The character `offset` places ahead, or behind if that is negative; none outside the text. -/
def peek (r : Reader) (offset : Int) : Option Char :=
  let index := r.position + offset
  if index < 0 then none else r.text[index.toNat]?

/-- Reads one character. -/
def next : ReadM Char := do
  let r ← get
  match r.text[r.position]? with
  | some c =>
    set (r.past [c])
    return c
  | none =>
    throw (.located .lexical
      s!"Attempted to read past end of source at position {r.position}" r.location)

/-- Reads up to the next line feed. -/
def skipComment : ReadM Unit := modify fun r => r.past (splitComment r.rest).1

/-- Reads all layout. -/
def skipLayout : ReadM Unit := modify fun r => r.past (splitLayout r.rest).1

/-- Reads one token; at the end of the text, the end mark. -/
def nextToken (v : Vocabulary) : ReadM Token := do
  skipLayout
  let r ← get
  match r.rest with
  | [] => return .endMark r.location
  | c :: cs =>
    let cut := cutLexeme v c cs
    set (r.past cut.text)
    match cut.verdict with
    | .ok kind => return .located kind (String.ofList cut.text) r.location
    | .error f => throw (f.error r.location)

end Reader

end BlockLang
