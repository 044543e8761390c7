/-!
# Lines

Cutting a text at a separator, and the line conventions of text files.
-/

namespace BlockLang.Text

/-- The pieces of a text between the occurrences of `sep`; there is always one more piece than
there are separators. -/
def splitAt {α : Type} [BEq α] (sep : α) : List α → List (List α)
  | [] => [[]]
  | c :: cs =>
    if c == sep then [] :: splitAt sep cs
    else match splitAt sep cs with
      | [] => [[c]]
      | piece :: pieces => (c :: piece) :: pieces

section

variable {α : Type} [BEq α]

theorem splitAt_ne_nil (sep : α) (cs : List α) : splitAt sep cs ≠ [] := by
  fun_cases splitAt sep cs <;> simp

/-- The pieces with the separators between them make up the text. -/
theorem intercalate_splitAt [LawfulBEq α] (sep : α) (cs : List α) :
    [sep].intercalate (splitAt sep cs) = cs := by
  fun_induction splitAt sep cs with
  | case1 => rfl
  | case2 c cs hc ih =>
    obtain ⟨p, ps, heq⟩ := List.exists_cons_of_ne_nil (splitAt_ne_nil sep cs)
    rw [heq] at ih ⊢
    rw [eq_of_beq hc, List.intercalate_cons_cons, ih]
    rfl
  | case3 c cs hc heq ih => exact absurd heq (splitAt_ne_nil sep cs)
  | case4 c cs hc p ps heq ih =>
    rw [heq] at ih
    cases ps with
    | nil => simpa [List.intercalate] using ih
    | cons q qs => simpa [List.intercalate_cons_cons] using ih

/-- No piece holds a separator. -/
theorem not_mem_of_mem_splitAt [LawfulBEq α] {sep : α} {cs piece : List α}
    (h : piece ∈ splitAt sep cs) : sep ∉ piece := by
  fun_induction splitAt sep cs generalizing piece with
  | case1 => simp_all
  | case2 c cs hc ih =>
    rcases List.mem_cons.mp h with rfl | h
    · exact List.not_mem_nil
    · exact ih h
  | case3 c cs hc heq ih =>
    rw [List.mem_singleton.mp h, List.mem_singleton]
    exact fun e => hc (by simp [e])
  | case4 c cs hc p ps heq ih =>
    rcases List.mem_cons.mp h with rfl | h
    · rw [List.mem_cons, not_or]
      exact ⟨fun e => hc (by simp [e]), ih (by rw [heq]; exact List.mem_cons_self)⟩
    · exact ih (by rw [heq]; exact List.mem_cons_of_mem _ h)

end

/-- The lines of a text, a line feed ending all but the last. -/
def lines (s : String) : List String := (splitAt '\n' s.toList).map String.ofList

/-- Lines joined by line feeds. -/
def unlines (ls : List String) : String := "\n".intercalate ls

/-- A text file may end a line by a line feed, a carriage return, or a carriage return and a line
feed; in memory all three are one line feed. -/
def universalLines : List Char → List Char
  | [] => []
  | '\r' :: '\n' :: cs => '\n' :: universalLines cs
  | c :: cs => (if c == '\r' then '\n' else c) :: universalLines cs

/-- The text `s` behind as many spaces as bring it to `width` characters. -/
def padLeft (width : Nat) (s : String) : String :=
  String.ofList (List.replicate (width - s.length) ' ') ++ s

/-- A run of `n` spaces; no space if `n` is negative. -/
def spaces (n : Int) : String := String.ofList (List.replicate n.toNat ' ')

end BlockLang.Text
