import BlockLang.Text.Blank
import BlockLang.Text.Quoted

/-!
# Loose texts

A data format may spell the halves of surrogate pairs one by one, and a half without its partner
denotes no character. The arguments and the environment of a program hold halves too, in place of
bytes that belong to no character. A loose text is a sequence of characters and halves. Every text
is a loose text, and a loose text without halves is a text (`toString?_eq_some`).
-/

namespace BlockLang.Text

/-- What a loose text is made of. -/
inductive Point where
  | char (c : Char)
  /-- Half a surrogate pair, counted from the first one on. -/
  | half (u : Fin 0x800)
  deriving DecidableEq, Repr, Inhabited

namespace Point

/-- The character of a point that is one. -/
def char? : Point → Option Char
  | char c => some c
  | half _ => none

/-- The sixteen-bit unit of half a pair. -/
def unit (u : Fin 0x800) : Nat := 0xD800 + u

/-- The half of a point that is one. -/
def half? : Point → Option (Fin 0x800)
  | char _ => none
  | half u => some u

/-- Is the point a blank character? -/
def isBlank : Point → Bool
  | char c => Text.isBlank c
  | half _ => false

/-- How a point is written between marks `q`: a half by its four-digit code. -/
def escape (q : Char) : Point → List Char
  | char c => Quoted.escape q c
  | half u => '\\' :: 'u' :: hex 4 (unit u)

/-- The bytes of a point in the name of a file. The 128 halves from `U+DC80` on stand for single
bytes that belong to no character; the other halves have no bytes. -/
def bytes? : Point → Option (List UInt8)
  | char c => some (String.utf8EncodeChar c)
  | half u => if 0x480 ≤ u.val ∧ u.val < 0x500 then some [UInt8.ofNat (u - 0x400)] else none

end Point

/-- A sequence of characters and of halves of surrogate pairs. -/
structure LooseText where
  points : List Point
  deriving DecidableEq, Repr, Inhabited

namespace LooseText

/-- A text as a loose text. -/
def ofString (s : String) : LooseText := ⟨s.toList.map .char⟩

instance : Coe String LooseText := ⟨ofString⟩

instance : Append LooseText := ⟨fun s t => ⟨s.points ++ t.points⟩⟩

/-- Is there nothing in the text? -/
def isEmpty (t : LooseText) : Bool := t.points.isEmpty

/-- Does the text `s` begin with this one? -/
def isPrefixOf (t : LooseText) (s : String) : Bool := t.points.isPrefixOf (ofString s).points

/-- Does the text end with `s`? -/
def endsWith (t : LooseText) (s : String) : Bool := (ofString s).points.isSuffixOf t.points

/-- The characters of a loose text, without the halves. -/
def chars (t : LooseText) : List Char := t.points.filterMap Point.char?

/-- The text that a loose text without halves is. -/
def toString? (t : LooseText) : Option String := (t.points.mapM Point.char?).map String.ofList

/-- The text with the replacement character for every half. -/
def filled (t : LooseText) : String :=
  String.ofList (t.points.map fun p => p.char?.getD '\uFFFD')

/-- The text with a code for every half. -/
def escaped (t : LooseText) : String :=
  String.ofList (t.points.flatMap fun
    | .char c => [c]
    | .half u => '\\' :: 'u' :: hex 4 (Point.unit u))

/-- The bytes of a text that names a file, if it has any. -/
def bytes? (t : LooseText) : Option (List UInt8) := (t.points.mapM Point.bytes?).map List.flatten

/-- The quoted form of a loose text. -/
def quoted (t : LooseText) : String :=
  let q := Quoted.mark t.chars
  String.ofList (q :: (t.points.flatMap (Point.escape q) ++ [q]))

theorem chars_ofString (s : String) : (ofString s).chars = s.toList := by
  simp [ofString, chars, List.filterMap_map, Function.comp_def, Point.char?]

/-- The characters of points that are all characters. -/
theorem mapM_char?_eq_some {ps : List Point} {cs : List Char} :
    ps.mapM Point.char? = some cs ↔ ps = cs.map .char := by
  induction ps generalizing cs with
  | nil => cases cs <;> simp
  | cons p ps ih =>
    cases p with
    | half u => cases cs <;> simp [List.mapM_cons, Point.char?]
    | char c =>
      cases cs with
      | nil => simp [List.mapM_cons, Point.char?, Option.bind_eq_some_iff]
      | cons d cs =>
        simpa [List.mapM_cons, Point.char?, ih, Option.bind_eq_some_iff] using and_comm

/-- A loose text that is a text is that text. -/
theorem toString?_eq_some {t : LooseText} {s : String} :
    t.toString? = some s ↔ t = .ofString s := by
  obtain ⟨ps⟩ := t
  simp only [toString?, Option.map_eq_some_iff, mapM_char?_eq_some, ofString, mk.injEq]
  constructor
  · rintro ⟨cs, rfl, rfl⟩
    simp
  · rintro rfl
    exact ⟨s.toList, rfl, by simp⟩

theorem toString?_ofString (s : String) : (ofString s).toString? = some s :=
  toString?_eq_some.mpr rfl

theorem ofString_inj {s s' : String} (h : ofString s = ofString s') : s = s' := by
  rwa [← toString?_eq_some, toString?_ofString, Option.some.injEq] at h

theorem quoted_ofString (s : String) : (ofString s).quoted = Text.quoted s := by
  rw [quoted, chars_ofString]
  simp [ofString, Text.quoted, Quoted.encode, List.flatMap_map, Point.escape]

end LooseText

end BlockLang.Text
