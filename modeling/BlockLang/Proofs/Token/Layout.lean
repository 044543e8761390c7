import BlockLang.Proofs.Token.Reads

/-!
# Layout

Layout is blanks and comments. A comment reaches up to a line feed, which is a blank, or to the end
of the text. So layout that ends with a comment is the end of a text, unless a line feed follows.
-/

namespace BlockLang

/-- **Layout** that something may follow: blanks, and comments with the line feeds that end them. -/
inductive Layout : List Char → Prop
  | nil : Layout []
  | blank {c cs} : isLayoutBlank c = true → Layout cs → Layout (c :: cs)
  | comment {text cs} : '\n' ∉ text → Layout cs → Layout ('#' :: (text ++ '\n' :: cs))

/-- **Layout at the end of a text**, which may end inside a comment. -/
inductive FinalLayout : List Char → Prop
  | whole {cs} : Layout cs → FinalLayout cs
  | comment {cs text} : Layout cs → '\n' ∉ text → FinalLayout (cs ++ '#' :: text)

namespace Layout

variable {cs ds : List Char}

theorem append (h : Layout cs) (hd : Layout ds) : Layout (cs ++ ds) := by
  induction h with
  | nil => exact hd
  | blank hb _ ih => exact .blank hb ih
  | @comment text cs ht _ ih =>
    have hall := Layout.comment ht ih
    simpa using hall

theorem final (h : Layout cs) (hd : FinalLayout ds) : FinalLayout (cs ++ ds) := by
  cases hd with
  | whole hd => exact .whole (h.append hd)
  | comment hd ht =>
    rw [← List.append_assoc]
    exact .comment (h.append hd) ht

end Layout

/-- A line feed ends a comment. -/
theorem FinalLayout.lineFeed {cs : List Char} (h : FinalLayout cs) : Layout (cs ++ ['\n']) := by
  cases h with
  | whole h => exact h.append (.blank (by decide) .nil)
  | comment h ht =>
    rw [List.append_assoc]
    exact h.append (.comment ht .nil)

/-! ## Where layout ends -/

/-- A text in front of which there is no layout that something follows. -/
inductive Front : List Char → Prop
  | nil : Front []
  | comment {text} : '\n' ∉ text → Front ('#' :: text)
  | lexeme {c r} : isLayoutBlank c = false → c ≠ '#' → Front (c :: r)

/-- Every text is layout and what it stands in front of. -/
theorem exists_layout_front (cs : List Char) :
    ∃ gap rest, cs = gap ++ rest ∧ Layout gap ∧ Front rest := by
  induction hn : cs.length using Nat.strongRecOn generalizing cs with
  | ind n ih =>
    subst hn
    cases cs with
    | nil => exact ⟨[], [], rfl, .nil, .nil⟩
    | cons c cs =>
      by_cases hb : isLayoutBlank c = true
      · obtain ⟨gap, rest, rfl, hgap, hrest⟩ := ih cs.length (by simp) cs rfl
        exact ⟨c :: gap, rest, rfl, .blank hb hgap, hrest⟩
      · by_cases hc : c = '#'
        · subst hc
          by_cases hnl : '\n' ∈ cs
          · obtain ⟨text, more, rfl, ht⟩ := List.eq_append_cons_of_mem hnl
            obtain ⟨gap, rest, rfl, hgap, hrest⟩ := ih more.length (by simp; omega) more rfl
            exact ⟨'#' :: (text ++ '\n' :: gap), rest, by simp, .comment ht hgap, hrest⟩
          · exact ⟨[], '#' :: cs, rfl, .nil, .comment hnl⟩
        · exact ⟨[], c :: cs, rfl, .nil, .lexeme (by simpa using hb) hc⟩

/-! ## The layout that is cut off -/

/-- A comment and what is behind it make up the text. -/
theorem splitComment_append (cs : List Char) : (splitComment cs).1 ++ (splitComment cs).2 = cs :=
  List.takeWhile_append_dropWhile

/-- A comment without a line feed reaches to the end of the text. -/
theorem splitComment_of_notMem {text : List Char} (ht : '\n' ∉ text) :
    splitComment text = (text, []) := by
  have hall : ∀ c ∈ text, (c != '\n') = true := fun c hc => by
    simpa using ne_of_mem_of_not_mem hc ht
  rw [splitComment, List.takeWhile_eq_self_iff.mpr hall, List.dropWhile_eq_nil_iff.mpr hall]

/-- A comment ends in front of its line feed. -/
theorem splitComment_lineFeed {text : List Char} (ht : '\n' ∉ text) (cs : List Char) :
    splitComment (text ++ '\n' :: cs) = (text, '\n' :: cs) := by
  have hstop : ∀ d ∈ ('\n' :: cs).head?, (d != '\n') = false := by simp
  obtain ⟨htake, hdrop⟩ := Prod.mk.inj (splitComment_of_notMem ht)
  rw [splitComment, takeWhile_append_of_stop hstop, dropWhile_append_of_stop hstop, htake, hdrop,
    List.nil_append]

/-- Layout that starts inside a comment is the comment and the layout behind it. -/
theorem layoutLength_comment (cs : List Char) :
    layoutLength true cs = (splitComment cs).1.length + layoutLength false (splitComment cs).2 := by
  induction cs with
  | nil => rfl
  | cons c cs ih =>
    by_cases hc : c = '\n'
    · subst hc
      simp [layoutLength, splitComment, isLayoutBlank]
    · have hgo : (c != '\n') = true := by simpa using hc
      rw [layoutLength, if_pos rfl, hgo, ih]
      simp [splitComment, hgo]
      omega

theorem splitLayout_comment (cs : List Char) :
    splitLayout ('#' :: cs) = ('#' :: ((splitComment cs).1 ++ (splitLayout (splitComment cs).2).1),
      (splitLayout (splitComment cs).2).2) := by
  rcases hsplit : splitComment cs with ⟨text, more⟩
  have hcs : text ++ more = cs := by simpa [hsplit] using splitComment_append cs
  have hlength : layoutLength false ('#' :: cs) = text.length + layoutLength false more + 1 := by
    rw [layoutLength, if_neg (by simp), if_neg (by decide), if_pos (by decide),
      layoutLength_comment, hsplit]
  rw [splitLayout, hlength, List.take_succ_cons, List.drop_succ_cons, ← hcs,
    List.take_length_add_append, List.drop_length_add_append]
  rfl

/-- **Layout is cut off**, and the layout behind it with it. -/
theorem Layout.splitLayout_append {gap : List Char} (h : Layout gap) (cs : List Char) :
    splitLayout (gap ++ cs) = (gap ++ (splitLayout cs).1, (splitLayout cs).2) := by
  induction h with
  | nil => rfl
  | blank hb _ ih => rw [List.cons_append, splitLayout_blank hb, ih, List.cons_append]
  | comment ht _ ih =>
    rw [List.cons_append, List.append_assoc, List.cons_append, splitLayout_comment,
      splitComment_lineFeed ht, splitLayout_blank (by decide), ih]
    simp

/-- Nothing more is cut off, unless it is a comment at the end of the text. -/
theorem Front.splitLayout {cs : List Char} (h : Front cs) :
    splitLayout cs = ([], cs) ∨ (splitLayout cs = (cs, []) ∧ FinalLayout cs) := by
  cases h with
  | nil => exact .inl rfl
  | @comment text ht =>
    refine .inr ⟨?_, .comment .nil ht⟩
    rw [splitLayout_comment, splitComment_of_notMem ht, splitLayout_nil, List.append_nil]
  | lexeme hb hc => exact .inl (splitLayout_lexeme hb hc)

/-- **What is cut off is layout**, which is the whole text if nothing is left. -/
theorem splitLayout_layout (cs : List Char) :
    (Layout (splitLayout cs).1 ∧ (splitLayout cs).2 ≠ []) ∨
      (FinalLayout cs ∧ (splitLayout cs).2 = []) := by
  obtain ⟨gap, rest, rfl, hgap, hrest⟩ := exists_layout_front cs
  rw [hgap.splitLayout_append]
  rcases hrest.splitLayout with h | ⟨h, hfinal⟩
  · rw [h, List.append_nil]
    by_cases hnil : rest = []
    · subst hnil
      exact .inr ⟨by simpa using FinalLayout.whole hgap, rfl⟩
    · exact .inl ⟨hgap, hnil⟩
  · rw [h]
    exact .inr ⟨hgap.final hfinal, rfl⟩

theorem layout_of_splitLayout {c : Char} {cs r : List Char} (h : (splitLayout cs).2 = c :: r) :
    Layout (splitLayout cs).1 := by
  rcases splitLayout_layout cs with ⟨hgap, -⟩ | ⟨-, hnil⟩
  · exact hgap
  · rw [hnil] at h
    cases h

theorem finalLayout_of_splitLayout {cs : List Char} (h : (splitLayout cs).2 = []) :
    FinalLayout cs := by
  rcases splitLayout_layout cs with ⟨-, hne⟩ | ⟨hfinal, -⟩
  · exact absurd h hne
  · exact hfinal

/-- The layout, the lexeme behind it and the rest make up the text. -/
theorem Lexeme.whole_text {v : Vocabulary} {c : Char} {cs r text rest : List Char} {k : Kind}
    (h : Lexeme v c r k text rest) (hcs : (splitLayout cs).2 = c :: r) :
    (splitLayout cs).1 ++ text ++ rest = cs := by
  rw [List.append_assoc, h.whole, ← hcs, splitLayout_append]

end BlockLang
