import BlockLang.Json.Basic

/-!
# Reading JSON

The grammar of JSON texts with three more words for numbers (`NaN`, `Infinity`, `-Infinity`). A
repeated member keeps its first place and takes its last value. Inside a string, control characters
have to be escaped; two escapes that form a surrogate pair are one character, and half a pair
stands for itself. Reading goes from left to right and reports the first error: a text that does not
follow the grammar, or an integer with more digits than are admitted.
-/

namespace BlockLang.Json

open BlockLang.Number BlockLang.Text

/-- Is `c` one of the four characters that may stand between the parts of a JSON text? -/
def isSpace (c : Char) : Bool := c == ' ' || c == '\t' || c == '\n' || c == '\r'

/-- The text from its first character that is no space. -/
def skip (cs : List Char) : List Char := cs.dropWhile isSpace

/-- The value of a hexadecimal digit. -/
def hexValue? (c : Char) : Option Nat :=
  if '0' ≤ c ∧ c ≤ '9' then some (c.toNat - '0'.toNat)
  else if 'a' ≤ c ∧ c ≤ 'f' then some (c.toNat - 'a'.toNat + 10)
  else if 'A' ≤ c ∧ c ≤ 'F' then some (c.toNat - 'A'.toNat + 10)
  else none

/-- The value of four hexadecimal digits. -/
def unit? (a b c d : Char) : Option Nat := do
  let a ← hexValue? a
  let b ← hexValue? b
  let c ← hexValue? c
  let d ← hexValue? d
  return ((a * 16 + b) * 16 + c) * 16 + d

/-- The character that a letter after a backslash stands for. -/
def letterEscape? (c : Char) : Option Char :=
  if c == '\x22' || c == '\\' || c == '/' then some c
  else if c == 'b' then some '\x08'
  else if c == 'f' then some '\x0c'
  else if c == 'n' then some '\n'
  else if c == 'r' then some '\r'
  else if c == 't' then some '\t'
  else none

/-- The point of a sixteen-bit unit. -/
def unitPoint (u : Nat) : Point :=
  if 0xD800 ≤ u ∧ u ≤ 0xDFFF then .half (.ofNat 0x800 (u - 0xD800)) else .char (Char.ofNat u)

/-- The points of a unit `u` and what follows it: the two halves of a surrogate pair are one
character. -/
def withUnit (u : Nat) : List Point → List Point
  | .half v :: s =>
    if 0xD800 ≤ u ∧ u ≤ 0xDBFF ∧ 0xDC00 ≤ Point.unit v then
      .char (Char.ofNat (0x10000 + (u - 0xD800) * 0x400 + (Point.unit v - 0xDC00))) :: s
    else unitPoint u :: .half v :: s
  | s => unitPoint u :: s

/-- The points of a string up to its closing quote, and the text after it. -/
def stringTail : List Char → Option (List Point × List Char)
  | [] => none
  | '\\' :: 'u' :: a :: b :: c :: d :: rest => do
    let u ← unit? a b c d
    let (s, rest) ← stringTail rest
    return (withUnit u s, rest)
  | '\\' :: c :: rest => do
    let c ← letterEscape? c
    let (s, rest) ← stringTail rest
    return (.char c :: s, rest)
  | c :: rest =>
    if c == '\x22' then some ([], rest)
    else if c == '\\' || c.toNat < 0x20 then none
    else do
      let (s, rest) ← stringTail rest
      return (.char c :: s, rest)

/-- Is `c` one of the ten decimal digits? -/
def isDecimal (c : Char) : Bool := '0' ≤ c && c ≤ '9'

/-- The number that a run of decimal digits denotes. -/
def natural (ds : List Char) : Nat := ds.foldl (fun n c => n * 10 + (c.toNat - '0'.toNat)) 0

/-- The digits after a point, if there are any, and the text after them. -/
def fraction (cs : List Char) : List Char × List Char :=
  match cs with
  | '.' :: rest =>
    match rest.takeWhile isDecimal with
    | [] => ([], cs)
    | ds => (ds, rest.dropWhile isDecimal)
  | _ => ([], cs)

/-- The exponent at the front of the text, if there is a complete one, and the text after it. -/
def exponent? (cs : List Char) : Option (Int × List Char) :=
  match cs with
  | e :: rest =>
    if e == 'e' || e == 'E' then
      let (negative, rest) := match rest with
        | '-' :: r => (true, r)
        | '+' :: r => (false, r)
        | r => (false, r)
      match rest.takeWhile isDecimal with
      | [] => none
      | ds =>
        let n : Int := natural ds
        some (if negative then -n else n, rest.dropWhile isDecimal)
    else none
  | [] => none

/-! ## Values -/

/-- Why a text denotes no value. -/
inductive ReadError where
  /-- The text does not follow the grammar. -/
  | malformed
  /-- An integer has more digits than are admitted. -/
  | longInteger (digits : Nat)
  deriving DecidableEq, Repr, Inhabited

/-- The number of digits that an integer may have. -/
def maxDigits : Nat := 4300

/-- What has to be there for the text to follow the grammar. -/
def need {α : Type} : Option α → Except ReadError α
  | some a => .ok a
  | none => .error .malformed

/-- An integer of the digits `ds`. -/
def integer (negative : Bool) (ds : List Char) : Except ReadError Json :=
  if maxDigits < ds.length then .error (.longInteger ds.length)
  else
    let n : Int := natural ds
    .ok (int (if negative then -n else n))

/-- A number without its sign: one zero or digits that do not start with a zero, then a fraction,
then an exponent. It is a real as soon as one of the two is there. -/
def unsigned (negative : Bool) (cs : List Char) : Except ReadError (Json × List Char) :=
  let (whole, rest) := match cs with
    | '0' :: rest => (['0'], rest)
    | cs => (cs.takeWhile isDecimal, cs.dropWhile isDecimal)
  if whole.isEmpty then .error .malformed
  else
    let (places, rest) := fraction rest
    match places, exponent? rest with
    | [], none => do return (← integer negative whole, rest)
    | _, none => .ok (real (.ofDecimal negative (natural (whole ++ places)) (-places.length)), rest)
    | _, some (e, rest) =>
      .ok (real (.ofDecimal negative (natural (whole ++ places)) (e - places.length)), rest)

/-- The text after the word `w`, if it starts with it. -/
def after? (w : String) (cs : List Char) : Option (List Char) :=
  if w.toList.isPrefixOf cs then some (cs.drop w.length) else none

/-- A constant or a number at the front of the text, and the text after it. -/
def scalar (cs : List Char) : Except ReadError (Json × List Char) :=
  match cs with
  | [] => .error .malformed
  | c :: rest =>
    if c == 'n' then need ((after? "null" cs).map (null, ·))
    else if c == 't' then need ((after? "true" cs).map (bool true, ·))
    else if c == 'f' then need ((after? "false" cs).map (bool false, ·))
    else if c == 'N' then need ((after? "NaN" cs).map (real .nan, ·))
    else if c == 'I' then need ((after? "Infinity" cs).map (real (.infinite false), ·))
    else if c == '-' then
      match after? "Infinity" rest with
      | some rest => .ok (real (.infinite true), rest)
      | none => unsigned true rest
    else unsigned false cs

mutual

/-- A value at the front of the text, and the text after it. Every level of nesting and every
further item uses up one unit of fuel, of which the length of the text is enough. -/
def value : Nat → List Char → Except ReadError (Json × List Char)
  | 0, _ => .error .malformed
  | fuel + 1, cs =>
    match cs with
    | '\x22' :: rest => do
      let (s, rest) ← need (stringTail rest)
      return (text ⟨s⟩, rest)
    | '[' :: rest =>
      match skip rest with
      | ']' :: rest => .ok (array [], rest)
      | rest => do
        let (items, rest) ← items fuel rest
        return (array items, rest)
    | '\x7b' :: rest =>
      match skip rest with
      | '\x7d' :: rest => .ok (object [], rest)
      | rest => do
        let (members, rest) ← members fuel rest
        return (object (Table.ofEntries members), rest)
    | cs => scalar cs

/-- The items of an array up to its closing bracket, and the text after it. -/
def items : Nat → List Char → Except ReadError (List Json × List Char)
  | 0, _ => .error .malformed
  | fuel + 1, cs => do
    let (item, rest) ← value fuel cs
    match skip rest with
    | ']' :: rest => return ([item], rest)
    | ',' :: rest =>
      let (items, rest) ← items fuel (skip rest)
      return (item :: items, rest)
    | _ => .error .malformed

/-- The members of an object up to its closing brace, and the text after it. -/
def members : Nat → List Char → Except ReadError (List (LooseText × Json) × List Char)
  | 0, _ => .error .malformed
  | fuel + 1, cs =>
    match cs with
    | '\x22' :: rest => do
      let (name, rest) ← need (stringTail rest)
      match skip rest with
      | ':' :: rest =>
        let (v, rest) ← value fuel (skip rest)
        match skip rest with
        | '\x7d' :: rest => return ([(⟨name⟩, v)], rest)
        | ',' :: rest =>
          let (members, rest) ← members fuel (skip rest)
          return ((⟨name⟩, v) :: members, rest)
        | _ => .error .malformed
      | _ => .error .malformed
    | _ => .error .malformed

end

/-- The value that a whole text denotes. -/
def read (cs : List Char) : Except ReadError Json := do
  let (v, rest) ← value (cs.length + 1) (skip cs)
  if (skip rest).isEmpty then return v else throw .malformed

end BlockLang.Json
