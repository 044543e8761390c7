import BlockLang.Text.LooseText

/-!
# Stand-ins

To everything that reads a source, half a surrogate pair is one more character of no class: it is no
letter, no numeral, no blank and no delimiter. So a loose text is read in disguise: every half in it
is hidden behind a stand-in, a symbol of no class that the text does not use itself, and equal
halves behind equal symbols. Lengths and places stay what they are. In what is shown of the text,
the stand-ins are taken back (`reveal_hide`).
-/

namespace BlockLang.Text

/-- Blocks of arrows, mathematical and musical symbols, drawings, signs and pictographs. -/
def symbols : CodePoints :=
  [(0x2190, 0x2307), (0x232B, 0x2426), (0x2500, 0x2767), (0x27F0, 0x2982), (0x29FE, 0x2B73),
   (0x1D000, 0x1D0F5), (0x1D800, 0x1D9FF), (0x1F300, 0x1F6D7), (0x1F900, 0x1FA53)]

/-- The characters of a set. -/
def CodePoints.chars (s : CodePoints) : List Char :=
  s.flatMap fun range => (List.range' range.1 (range.2 + 1 - range.1)).map Char.ofNat

/-- The halves that are hidden, each with its stand-in. -/
structure StandIns where
  pairs : List (Fin 0x800 × Char)
  deriving DecidableEq, Repr, Inhabited

namespace StandIns

/-- The symbols that a text does not use. -/
def free (t : LooseText) : List Char := symbols.chars.filter (!t.chars.contains ·)

/-- The stand-ins for a text. -/
def of (t : LooseText) : StandIns :=
  match (t.points.filterMap Point.half?).eraseDups with
  | [] => ⟨[]⟩
  | us => ⟨us.zip (free t)⟩

/-- The stand-in for a half. There is one as long as the symbols suffice. -/
def standIn (s : StandIns) (u : Fin 0x800) : Char := (s.pairs.lookup u).getD '\uFFFD'

/-- The half that a character stands in for. -/
def hidden? (s : StandIns) (c : Char) : Option (Fin 0x800) :=
  (s.pairs.find? (·.2 == c)).map (·.1)

/-- The character that a point is read as. -/
def hidePoint (s : StandIns) : Point → Char
  | .char c => c
  | .half u => s.standIn u

/-- The point that a character was read for. -/
def revealPoint (s : StandIns) : Point → Point
  | .char c => (s.hidden? c).elim (.char c) .half
  | .half u => .half u

/-- A text with its halves hidden. -/
def hide (s : StandIns) (t : LooseText) : String := String.ofList (t.points.map s.hidePoint)

/-- A text with the halves in place of their stand-ins. -/
def reveal (s : StandIns) (t : LooseText) : LooseText := ⟨t.points.map s.revealPoint⟩

end StandIns

end BlockLang.Text
