import BlockLang.Proofs.Token.Positions
import BlockLang.Text.Lines

/-!
# Places in a text

There are two ways to say where a character of a text stands. Counting, its line is told by the line
feeds in front of it, and its column by the characters behind the last of them. Cutting, the text is
split at its line feeds. Here the two are shown to agree: the line of that number starts with those
characters.
-/

namespace BlockLang

namespace Text

section

variable {α : Type} [BEq α] {sep : α}

/-- Cutting at a separator is `List.splitOn`. -/
theorem splitAt_eq_splitOn (cs : List α) : splitAt sep cs = cs.splitOn sep := by
  induction cs with
  | nil => simp [splitAt, List.splitOn]
  | cons c cs ih =>
    rw [splitAt, List.splitOn, List.splitOnP_cons_eq_if_modifyHead, ih]
    split
    · rfl
    · obtain ⟨p, ps, heq⟩ := List.exists_cons_of_ne_nil (List.splitOnP_ne_nil (· == sep) cs)
      rw [List.splitOn, heq]
      rfl

/-- The first piece ends in front of the first separator. -/
theorem eq_takeWhile_of_splitAt {cs p : List α} {ps : List (List α)}
    (h : splitAt sep cs = p :: ps) :
    p = cs.takeWhile (· != sep) := by
  fun_induction splitAt sep cs generalizing p ps with
  | case1 =>
    obtain ⟨rfl, -⟩ := List.cons.inj h
    rfl
  | case2 c cs hc =>
    obtain ⟨rfl, -⟩ := List.cons.inj h
    simp [bne, hc]
  | case3 c cs hc heq => exact absurd heq (splitAt_ne_nil sep cs)
  | case4 c cs hc q qs heq ih =>
    obtain ⟨rfl, -⟩ := List.cons.inj h
    rw [List.takeWhile_cons_of_pos (by simpa [bne] using hc), ← ih heq]

end

/-- **Lines joined and cut again**, if there are any and none of them holds a line feed. -/
theorem lines_unlines {ls : List String} (hne : ls ≠ []) (h : ∀ l ∈ ls, '\n' ∉ l.toList) :
    lines (unlines ls) = ls := by
  have hnone : ∀ l ∈ ls.map String.toList, '\n' ∉ l := by
    intro l hl
    obtain ⟨s, hs, rfl⟩ := List.mem_map.mp hl
    exact h s hs
  have hlist : (unlines ls).toList = ['\n'].intercalate (ls.map String.toList) :=
    String.toList_intercalate
  rw [lines, hlist, splitAt_eq_splitOn, List.splitOn_intercalate '\n' hnone (by simpa using hne)]
  simp

/-- A text is its lines, joined. -/
theorem unlines_lines (s : String) : unlines (lines s) = s := by
  rw [← String.toList_inj]
  have hlist : (unlines (lines s)).toList = ['\n'].intercalate ((lines s).map String.toList) :=
    String.toList_intercalate
  rw [hlist, lines, List.map_map]
  have hid : (String.toList ∘ String.ofList) = id := by
    funext cs
    simp
  rw [hid, List.map_id, intercalate_splitAt]

/-- No line holds a line feed. -/
theorem not_mem_of_mem_lines {s l : String} (h : l ∈ lines s) : '\n' ∉ l.toList := by
  obtain ⟨cs, hcs, rfl⟩ := List.mem_map.mp h
  simpa using not_mem_of_mem_splitAt hcs

theorem lines_ne_nil (s : String) : lines s ≠ [] := by simpa [lines] using splitAt_ne_nil _ _

end Text

open Text

/-- **From a place on**, the line is what stands in front of it on its last line and what
follows. -/
theorem drop_splitAt_append (before : List Char) {rest p : List Char} {ps : List (List Char)}
    (h : splitAt '\n' rest = p :: ps) :
    (splitAt '\n' (before ++ rest)).drop (before.count '\n') = (lastLine before ++ p) :: ps := by
  -- the induction is on the end of what stands in front, where its last line grows or starts
  induction before using List.reverseRecOn generalizing rest p ps with
  | nil => simpa [lastLine] using h
  | append_singleton cs c ih =>
    rw [List.append_assoc, List.singleton_append]
    by_cases hc : c = '\n'
    · subst hc
      have hsplit : splitAt '\n' ('\n' :: rest) = [] :: p :: ps := by simp [splitAt, h]
      have hdrop := congrArg (List.drop 1) (ih hsplit)
      rw [List.drop_drop] at hdrop
      simpa [lastLine, List.count_append] using hdrop
    · have hsplit : splitAt '\n' (c :: rest) = (c :: p) :: ps := by simp [splitAt, h, hc]
      have hdrop := ih hsplit
      simpa [lastLine, List.count_append, hc] using hdrop

/-- **A place in the source `s`**: behind the characters `before`, the source goes on with `rest`.
The line `line`, of those that the line feeds cut the source into, has `col - 1` characters in front
of that. -/
structure Place (s : String) (line col : Int) (before rest : List Char) : Prop where
  whole : s.toList = before ++ rest
  line : line = 1 + (before.count '\n' : Int)
  col : col = 1 + ((lastLine before).length : Int)
  shown : (lines s)[before.count '\n']? =
    some (String.ofList (lastLine before ++ rest.takeWhile (· != '\n')))

/-- **Counting agrees with cutting.** -/
theorem place_of_append {s : String} {before rest : List Char} (h : s.toList = before ++ rest) :
    Place s (1 + before.count '\n') (1 + (lastLine before).length) before rest where
  whole := h
  line := rfl
  col := rfl
  shown := by
    obtain ⟨p, ps, heq⟩ := List.exists_cons_of_ne_nil (splitAt_ne_nil '\n' rest)
    have hdrop := congrArg List.head? (drop_splitAt_append before heq)
    rw [List.head?_drop] at hdrop
    rw [lines, h, List.getElem?_map, hdrop, ← eq_takeWhile_of_splitAt heq]
    rfl

/-- **The token of a text that is cut into pieces** stands at its place. -/
theorem Pieces.place {before cs : List Char} {ts : List Token} (h : Pieces before cs ts) {t : Token}
    (ht : t ∈ ts) {s : String} (hs : s.toList = before ++ cs) :
    ∃ front rest, t.value ≠ "" ∧ Place s t.line t.col front (t.value.toList ++ rest) := by
  induction h with
  | layout => cases ht
  | @token before gap rest u us _ hne hline hcol _ ih =>
    rcases List.mem_cons.mp ht with rfl | ht
    · refine ⟨before ++ gap, rest, hne, ?_⟩
      rw [hline, hcol]
      exact place_of_append (by rw [hs]; simp)
    · exact ih ht (by rw [hs]; simp)

end BlockLang
