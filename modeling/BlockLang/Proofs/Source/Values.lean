import BlockLang.Proofs.Recognition.Expr
import BlockLang.Proofs.Token.Lone
import BlockLang.Source.Expr

/-!
# Writing values

The source text of a value reads back as that value, without comments and whatever follows it, as
long as that is neither a point nor a symbol. Every value that was read has a source text: if its
own text does not read as it, the text with its point set apart does.
-/

namespace BlockLang

open BlockLang.Text

/-! ## What reads as a value -/

/-- A text reads as a value exactly if its terminals span the value and nothing is left. -/
theorem readsAsValue_iff {text source : String} :
    readsAsValue text source = true ↔
      ∃ ts, tokenize .canonical source = .ok ts ∧ ValueSpan (terminals ts) text [] := by
  unfold readsAsValue
  cases hts : tokenize .canonical source with
  | error e => simp
  | ok ts =>
    have he : EndFree ts := (tokenRun_of_tokensFrom hts).endFree
    constructor
    · intro h
      dsimp only at h
      cases hv : Parse.valueText ⟨[], ts, 0⟩ with
      | error e c => simp [hv] at h
      | ok value c =>
        simp only [hv, Bool.and_eq_true, beq_iff_eq, Option.isNone_iff_eq_none] at h
        obtain ⟨rfl, hpeek⟩ := h
        obtain ⟨hsuf, hspan⟩ := Parse.recognizes_valueText.sound (c := ⟨[], ts, 0⟩) he hv
        -- no token comes next, and no end mark either
        have hnil : c.rest = [] := by
          obtain ⟨rd, us, d⟩ := c
          cases us with
          | nil => rfl
          | cons u us =>
            rw [Cursor.peek_cons (endFree_cons.mp (he.of_suffix hsuf)).1] at hpeek
            cases hpeek
        rw [hnil] at hspan
        exact ⟨ts, rfl, hspan⟩
    · rintro ⟨ts', heq, hspan⟩
      injection heq with heq
      subst heq
      obtain ⟨c, hv, hrest⟩ :=
        Parse.recognizes_valueText.complete (c := ⟨[], ts, 0⟩) he hspan trivial
      have hnil : c.rest = [] := by simpa [terminals] using hrest
      simp [hv, Cursor.peek, hnil, Token.first?]

/-- A text that is read as terminals of a value reads as that value. -/
theorem readsAsValue_of_reads {text source : String} {ws : List Terminal}
    (h : Reads .canonical source.toList ws) (hspan : ValueSpan ws text []) :
    readsAsValue text source = true := by
  obtain ⟨ts, hts, rfl⟩ := h.tokensFrom .start
  exact readsAsValue_iff.mpr ⟨ts, hts, hspan⟩

/-- A value whose tokens are all there is may have something behind it. -/
theorem ValueSpan.behind {ws rest : List Terminal} {s : String} (h : ValueSpan ws s [])
    (hdot : ¬ StartsWith (.delimiter .dot) rest) (hsym : ∀ m more, rest ≠ .symbol m :: more) :
    ValueSpan (ws ++ rest) s rest := by
  cases h with
  | name => exact .name hdot
  | pointed => exact .pointed hsym
  | member => exact .member

/-! ## Spellings -/

/-- Only the blanks at the end are dropped. -/
theorem dropEndWhile_of_last {p : Char → Bool} {xs : List Char} {d : Char}
    (h : xs.getLast? = some d) (hd : p d = false) : dropEndWhile p xs = xs := by
  obtain ⟨init, rfl⟩ := List.getLast?_eq_some_iff.mp h
  simp [dropEndWhile, hd]

theorem dropEndWhile_concat {p : Char → Bool} {xs : List Char} {d : Char} (hd : p d = true) :
    dropEndWhile p (xs ++ [d]) = dropEndWhile p xs := by
  simp [dropEndWhile, hd]

theorem dropEndWhile_sublist (p : Char → Bool) (xs : List Char) :
    (dropEndWhile p xs).Sublist xs := by
  have hsub := (List.dropWhile_sublist p (l := xs.reverse)).reverse
  rwa [List.reverse_reverse] at hsub

/-- A point and what stands on either side of it is one of the splits. -/
theorem mem_pointSplits (as bs : List Char) : (as, bs) ∈ pointSplits (as ++ '.' :: bs) := by
  induction as with
  | nil => simp [pointSplits]
  | cons a as ih =>
    rw [List.cons_append, pointSplits, List.mem_append]
    exact .inl (List.mem_map.mpr ⟨_, ih, rfl⟩)

theorem eq_of_mem_pointSplits {cs : List Char} {sides : List Char × List Char}
    (h : sides ∈ pointSplits cs) : cs = sides.1 ++ '.' :: sides.2 := by
  induction cs generalizing sides with
  | nil => cases h
  | cons c cs ih =>
    rw [pointSplits, List.mem_append] at h
    rcases h with h | h
    · obtain ⟨inner, hinner, rfl⟩ := List.mem_map.mp h
      rw [ih hinner]
      rfl
    · split at h
      · next hc =>
        obtain rfl := List.mem_singleton.mp h
        rw [eq_of_beq hc]
        rfl
      · cases h

/-- No spelling of a value holds more `#` than the value. -/
theorem count_hash_of_mem_valueSpellings {text source : String}
    (h : source ∈ valueSpellings text) : source.toList.count '#' ≤ text.toList.count '#' := by
  rcases List.mem_cons.mp h with rfl | h
  · exact Nat.le_refl _
  · obtain ⟨sides, hsides, rfl⟩ := List.mem_map.mp h
    have hsub := dropEndWhile_sublist isBlank (sides.1 ++ [' ', '.', ' '] ++ sides.2)
    have hcount := hsub.count_le '#'
    rw [eq_of_mem_pointSplits hsides, String.toList_ofList]
    simpa [List.count_append] using hcount

/-- A value holds as many `#` as its symbols. -/
theorem count_hash_of_valueSpan {ts : List Token} {text : String}
    (h : ValueSpan (terminals ts) text []) : text.toList.count '#' ≤ hashes ts := by
  generalize hws : terminals ts = ws at h
  cases h with
  | name =>
    obtain ⟨t, us, rfl, ht, -⟩ := List.map_eq_cons_iff.mp hws
    obtain ⟨-, rfl⟩ := Token.terminal_eq_symbol.mp ht
    simp
  | pointed =>
    obtain ⟨t, us, rfl, ht, -⟩ := List.map_eq_cons_iff.mp hws
    obtain ⟨-, rfl⟩ := Token.terminal_eq_symbol.mp ht
    simp [List.count_append]
  | member =>
    obtain ⟨t, us, rfl, ht, hus⟩ := List.map_eq_cons_iff.mp hws
    obtain ⟨u, vs, rfl, -, hvs⟩ := List.map_eq_cons_iff.mp hus
    obtain ⟨m, more, rfl, hm, -⟩ := List.map_eq_cons_iff.mp hvs
    obtain ⟨-, rfl⟩ := Token.terminal_eq_symbol.mp ht
    obtain ⟨-, rfl⟩ := Token.terminal_eq_symbol.mp hm
    simp only [hashes_cons, String.toList_append, List.count_append]
    have hpoint : ".".toList.count '#' = 0 := by decide
    omega

/-! ## The source text of a value -/

/-- The terminals of the source text of a value. -/
def valueTerminals (text : String) : List Terminal :=
  match valueSource text with
  | .error _ => []
  | .ok source =>
    match tokenize .canonical source with
    | .error _ => []
    | .ok ts => terminals ts

/-- **The source text of a value** is read as the value, and holds no comment. -/
theorem valueSource_reads {text source : String} (h : valueSource text = .ok source) :
    Reads .canonical source.toList (valueTerminals text) ∧
      ValueSpan (valueTerminals text) text [] := by
  have hfind : (valueSpellings text).find? (readsAsValue text) = some source := by
    unfold valueSource at h
    split at h
    · next heq =>
      injection h with h
      rw [heq, h]
    · cases h
  obtain ⟨ts, hts, hspan⟩ := readsAsValue_iff.mp (List.find?_some hfind)
  have hws : valueTerminals text = terminals ts := by simp only [valueTerminals, h, hts]
  rw [hws]
  refine ⟨?_, hspan⟩
  have hmem := List.mem_of_find?_eq_some hfind
  -- a spelling holds no more `#` than its symbols, so none of it is a comment
  have hcount : source.toList.count '#' ≤ hashes ts :=
    Nat.le_trans (count_hash_of_mem_valueSpellings hmem) (count_hash_of_valueSpan hspan)
  exact (tokenRun_of_tokensFrom hts).reads Vocabulary.kindOf_canonical_ne hcount

/-- One spelling that reads as the value gives it a source text. -/
theorem valueSource_of_spelling {text source : String} (hmem : source ∈ valueSpellings text)
    (h : readsAsValue text source = true) : ∃ found, valueSource text = .ok found := by
  cases hfind : (valueSpellings text).find? (readsAsValue text) with
  | none => exact absurd h (List.find?_eq_none.mp hfind source hmem)
  | some found => exact ⟨found, by simp only [valueSource, hfind]⟩

/-- **Every value of lone symbols can be written.** -/
theorem valueSource_of_span {ws rest : List Terminal} {text : String} (h : ValueSpan ws text rest)
    (hlone : LoneSymbols ws) : ∃ source, valueSource text = .ok source := by
  cases h with
  | @name s rest _ =>
    have hs := lone_iff.mp (hlone text (by simp))
    exact valueSource_of_spelling List.mem_cons_self (readsAsValue_of_reads hs (.name (by simp)))
  | @pointed s rest _ =>
    -- the spelling with blanks around the point, but the last, which is cut off
    have hs := lone_iff.mp (hlone s (by simp))
    have hspelling : String.ofList (s.toList ++ [' ', '.']) ∈ valueSpellings (s ++ ".") := by
      refine List.mem_cons_of_mem _ (List.mem_map.mpr ⟨(s.toList, []), ?_, ?_⟩)
      · rw [String.toList_append]
        exact mem_pointSplits s.toList []
      · have hlast : (s.toList ++ [' ', '.']).getLast? = some '.' := by simp
        have heq : s.toList ++ [' ', '.', ' '] ++ [] = (s.toList ++ [' ', '.']) ++ [' '] := by simp
        dsimp only
        rw [heq, dropEndWhile_concat (by decide), dropEndWhile_of_last hlast (by decide)]
    refine valueSource_of_spelling hspelling (readsAsValue_of_reads ?_ (.pointed (by simp)))
    rw [String.toList_ofList]
    exact hs.append (stops_cons.mpr (by decide)) (.space (Reads.delimiter .dot .nil))
  | @member s m rest =>
    have hs := lone_iff.mp (hlone s (by simp))
    have hm := lone_iff.mp (hlone m (by simp))
    -- a lone symbol does not end with a blank, so nothing is cut off its end
    obtain ⟨d, hlast, hd⟩ := (hlone m (by simp)).last
    have hspelling : String.ofList (s.toList ++ [' ', '.', ' '] ++ m.toList) ∈
        valueSpellings (s ++ "." ++ m) := by
      refine List.mem_cons_of_mem _ (List.mem_map.mpr ⟨(s.toList, m.toList), ?_, ?_⟩)
      · have heq : (s ++ "." ++ m).toList = s.toList ++ '.' :: m.toList := by
          rw [String.toList_append, String.toList_append, List.append_assoc]
          rfl
        rw [heq]
        exact mem_pointSplits s.toList m.toList
      · have hlast' : (s.toList ++ [' ', '.', ' '] ++ m.toList).getLast? = some d := by
          rw [List.getLast?_append, hlast]
          rfl
        dsimp only
        rw [dropEndWhile_of_last hlast' hd]
    refine valueSource_of_spelling hspelling (readsAsValue_of_reads ?_ .member)
    rw [String.toList_ofList, List.append_assoc]
    exact hs.append (stops_cons.mpr (by decide))
      (.space (Reads.delimiter .dot (.space hm)))

end BlockLang
