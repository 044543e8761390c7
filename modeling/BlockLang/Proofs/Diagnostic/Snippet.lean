import BlockLang.Diagnostic.Context
import BlockLang.Proofs.Text.Places

/-!
# What a diagnostic shows

A context cuts the lines around an error out of its source when it is made, and counts them again
when it is shown. Both times the first line is two lines above the error. So each line is shown
behind the number that it has in the source, and the marker comes right below the line of the error.
-/

namespace BlockLang

open BlockLang.Text

namespace ErrorContext

/-! ## Numbered lines -/

/-- Lines behind their numbers, the first of which is `n`. -/
def numberedFrom (n : Nat) (ls : List String) : List String :=
  (ls.zipIdx n).map fun l => margin l.2 ++ l.1

/-- **The lines of a source from the number `first` to the number `last`**, each behind its own
number. -/
def numbered (source : String) (first last : Int) : List String :=
  (((lines source).zipIdx 1).filter fun l => first ≤ l.2 ∧ l.2 ≤ last).map
    fun l => margin l.2 ++ l.1

theorem numberedFrom_cons (n : Nat) (l : String) (ls : List String) :
    numberedFrom n (l :: ls) = (margin n ++ l) :: numberedFrom (n + 1) ls :=
  rfl

/-- Members whose numbers are in an interval are next to each other. -/
theorem filter_zipIdx (ls : List String) (first last n : Nat) :
    ((ls.zipIdx n).filter fun l => first ≤ l.2 ∧ l.2 ≤ last) =
      ((ls.take (last + 1 - n)).drop (first - n)).zipIdx (max first n) := by
  induction ls generalizing n with
  | nil => simp
  | cons l ls ih =>
    rw [List.zipIdx_cons, List.filter_cons, ih]
    by_cases hlast : n ≤ last
    · have htake : last + 1 - n = last + 1 - (n + 1) + 1 := by omega
      rw [htake, List.take_succ_cons]
      by_cases hfirst : first ≤ n
      · -- the first number is in the interval, and so are the next ones up to its end
        have hzero : first - n = 0 := by omega
        have hzero' : first - (n + 1) = 0 := by omega
        rw [if_pos (by simp [hfirst, hlast]), hzero, hzero', List.drop_zero, List.drop_zero,
          List.zipIdx_cons, max_eq_right hfirst, max_eq_right (by omega)]
      · have hdrop : first - n = first - (n + 1) + 1 := by omega
        rw [if_neg (by simp [hfirst]), hdrop, List.drop_succ_cons, max_eq_left (by omega),
          max_eq_left (by omega)]
    · have hzero : last + 1 - n = 0 := by omega
      have hzero' : last + 1 - (n + 1) = 0 := by omega
      simp [hzero, hzero', hlast]

/-- The numbered lines are a part of the lines of the source. -/
theorem numbered_eq (source : String) {first : Nat} (hfirst : 1 ≤ first) (last : Nat) :
    numbered source first last =
      numberedFrom first (((lines source).take last).drop (first - 1)) := by
  have hfilter := filter_zipIdx (lines source) first last 1
  rw [Nat.add_sub_cancel, max_eq_left hfirst] at hfilter
  rw [numbered, numberedFrom, ← hfilter]
  simp

/-- The first line of a source has the number one. -/
theorem numbered_max (source : String) (first last : Int) :
    numbered source (max 1 first) last = numbered source first last := by
  unfold numbered
  congr 1
  refine List.filter_congr fun l hl => ?_
  have hnumber := List.le_snd_of_mem_zipIdx hl
  rw [decide_eq_decide]
  omega

/-! ## The marker -/

/-- Below the line of the error there is no marker. -/
theorem annotate_past (column : Int) {line : Int} {n : Nat} (h : line < n) (ls : List String) :
    annotate line column n ls = numberedFrom n ls := by
  induction ls generalizing n with
  | nil => rfl
  | cons l ls ih =>
    have hne : ¬ (n : Int) = line := by omega
    have hnext := ih (n := n + 1) (by omega)
    rw [annotate, if_neg hne, numberedFrom_cons, ← hnext]
    rfl

/-- **The marker comes right below the line of the error**, if that is not above. -/
theorem annotate_append {line n : Nat} (column : Int) {above : List String} (hne : above ≠ [])
    (h : n + above.length = line + 1) (below : List String) :
    annotate line column n (above ++ below) =
      numberedFrom n above ++ marker line column :: numberedFrom (line + 1) below := by
  induction above generalizing n with
  | nil => exact absurd rfl hne
  | cons l above ih =>
    rw [List.length_cons] at h
    cases above with
    | nil =>
      obtain rfl : n = line := by simpa using h
      have hpast : annotate n column (n + 1 : Nat) below = numberedFrom (n + 1) below :=
        annotate_past column (by omega) below
      rw [List.singleton_append, annotate, if_pos rfl, numberedFrom_cons, ← hpast]
      rfl
    | cons l' above =>
      rw [List.length_cons] at h
      have hno : ¬ (n : Int) = line := by omega
      have hrest := ih (n := n + 1) (List.cons_ne_nil _ _) (by rw [List.length_cons]; omega)
      rw [List.cons_append, annotate, if_neg hno, numberedFrom_cons]
      exact congrArg ((margin n ++ l) :: ·) hrest

/-! ## The excerpt -/

/-- The excerpt around the line `i + 1`: up to that line, and what is below it. -/
theorem excerpt_eq {source : String} {i : Nat} (hi : i < (lines source).length) :
    excerpt source (i + 1) =
      ((lines source).take (i + 1)).drop (i - 2) ++
        ((lines source).take (i + 3)).drop (i + 1) := by
  have hstop : upTo (lines source).length (min ((lines source).length : Int) (i + 1 + 2)) =
      min (i + 3) (lines source).length := by
    rw [upTo, if_neg (by omega)]
    omega
  have hfirst : (firstLine (i + 1) - 1).toNat = i - 2 := by
    rw [firstLine]
    omega
  have hle : i - 2 ≤ ((lines source).take (i + 1)).length := by
    rw [List.length_take]
    omega
  rw [excerpt, hstop, hfirst, ← List.take_eq_take_min]
  have hsplit := List.take_append_drop (i + 1) ((lines source).take (i + 3))
  rw [List.take_take, min_eq_left (by omega)] at hsplit
  rw [← List.drop_append_of_le_length hle, hsplit]

/-- The lines that are shown with those of a source text put together again. -/
theorem lines_snippet {source : String} {i : Nat} (hi : i < (lines source).length) :
    lines (unlines (excerpt source (i + 1))) = excerpt source (i + 1) := by
  refine lines_unlines ?_ fun l hl => ?_
  · rw [excerpt_eq hi, ← List.length_pos_iff, List.length_append, List.length_drop,
      List.length_take]
    omega
  · exact not_mem_of_mem_lines (List.mem_of_mem_take (List.mem_of_mem_drop hl))

/-- Only an empty source has an empty snippet. -/
theorem snippet_ne_empty {source : String} {i : Nat} (hi : i < (lines source).length)
    (hne : source ≠ "") : unlines (excerpt source (i + 1)) ≠ "" := by
  intro hempty
  have hone : excerpt source (i + 1) = [""] := by
    rw [← lines_snippet hi, hempty]
    rfl
  -- a snippet of one line is the whole source
  have hlength := congrArg List.length (hone.symm.trans (excerpt_eq hi))
  simp only [List.length_append, List.length_drop, List.length_take, List.length_singleton]
    at hlength
  have hsource : (lines source).length = 1 := by omega
  obtain rfl : i = 0 := by omega
  have hall : excerpt source (0 + 1) = lines source := by
    have hexcerpt := excerpt_eq hi
    simpa [hsource, List.take_of_length_le, List.drop_eq_nil_of_le] using hexcerpt
  exact hne (by rw [← unlines_lines source, ← hall]; exact hempty)

/-- **The lines of a context of the line `i + 1`**: the numbered lines up to that line, the marker,
and the numbered lines below. -/
theorem annotate_excerpt {source : String} {i : Nat} (hi : i < (lines source).length)
    (column : Int) :
    annotate (i + 1) column (firstLine (i + 1)) (excerpt source (i + 1)) =
      numbered source (i - 1) (i + 1) ++ marker (i + 1) column ::
        numbered source (i + 2) (i + 3) := by
  have hfirst : firstLine (i + 1) = (max 1 (i - 1) : Nat) := by
    rw [firstLine]
    omega
  have habove : numbered source (i - 1) (i + 1) =
      numberedFrom (max 1 (i - 1)) (((lines source).take (i + 1)).drop (i - 2)) := by
    have hdrop : max 1 (i - 1) - 1 = i - 2 := by omega
    have hnumbered := numbered_eq source (le_max_left 1 (i - 1)) (i + 1)
    rw [hdrop, ← hfirst] at hnumbered
    rw [← hnumbered, ← numbered_max, firstLine]
    congr 2
    omega
  have hbelow : numbered source (i + 2) (i + 3) =
      numberedFrom (i + 2) (((lines source).take (i + 3)).drop (i + 1)) := by
    have hone : 1 ≤ i + 2 := by omega
    exact numbered_eq source hone (i + 3)
  have hne : ((lines source).take (i + 1)).drop (i - 2) ≠ [] := by
    rw [← List.length_pos_iff, List.length_drop, List.length_take]
    omega
  have hlength : max 1 (i - 1) + (((lines source).take (i + 1)).drop (i - 2)).length =
      i + 1 + 1 := by
    rw [List.length_drop, List.length_take]
    omega
  rw [excerpt_eq hi, hfirst, habove, hbelow]
  exact annotate_append column hne hlength _

/-- A context with a snippet is shown as its place and its body. -/
theorem text_of_snippet (file : String) (line column : Int) {snippet : String} (h : snippet ≠ "") :
    text ⟨file, line, column, some snippet⟩ =
      unlines (s!"{file}:{line}:{column}" ::
        annotate line column (firstLine line) (lines snippet)) := by
  have hne : annotate line column (firstLine line) (lines snippet) ≠ [] := by
    obtain ⟨l, ls, heq⟩ := List.exists_cons_of_ne_nil (lines_ne_nil snippet)
    rw [heq, annotate]
    exact List.cons_ne_nil _ _
  rw [unlines, String.intercalate_cons_of_ne_nil hne]
  unfold text
  split
  · next heq => cases heq
  · next heq => exact absurd (Option.some.inj heq) h
  · unfold body
    split
    · next heq => cases heq
    · next heq => exact absurd (Option.some.inj heq) h
    · next heq =>
      rw [← Option.some.inj heq]
      rfl

end ErrorContext

namespace SyntaxError

/-- **What the diagnostic of an error in a source consists of**: the place; the lines of the source
whose numbers are no more than two from that of the error, with a marker right below the line of the
error; and the tag with the message. -/
def report (e : SyntaxError) (file source : String) : List String :=
  s!"{file}:{e.line}:{e.col}" ::
    (ErrorContext.numbered source (e.line - 2) e.line ++
      (spaces ((ErrorContext.margin e.line).length + (e.col - 1)) ++ "^^^") ::
      ErrorContext.numbered source (e.line + 1) (e.line + 2)) ++
    [s!"{e.tag.name}: {e.message}"]

/-- **A diagnostic is its report**, for an error on a line of the source. -/
theorem diagnostic_context {e : SyntaxError} {source : String} (file : String)
    (hpos : 1 ≤ e.line) (hle : e.line ≤ (lines source).length) (hcol : 1 ≤ e.col)
    (hne : source ≠ "") :
    e.diagnostic (some (e.context file source)) = unlines (e.report file source) := by
  obtain ⟨i, hi⟩ : ∃ i : Nat, e.line = i + 1 := ⟨(e.line - 1).toNat, by omega⟩
  have hlt : i < (lines source).length := by omega
  have hcontext : e.context file source = .ofSource file source e.line e.col := by
    rw [context, if_neg (by omega), if_neg (by omega)]
  have htext := ErrorContext.text_of_snippet file e.line e.col
    (ErrorContext.snippet_ne_empty hlt hne)
  rw [ErrorContext.lines_snippet hlt, ← hi] at htext
  have hannotate := ErrorContext.annotate_excerpt hlt e.col
  have habove : (i : Int) - 1 = e.line - 2 := by omega
  have hbelow : (i : Int) + 2 = e.line + 1 := by omega
  have hlast : (i : Int) + 3 = e.line + 2 := by omega
  rw [habove, hbelow, hlast, ← hi] at hannotate
  have hmarker : ErrorContext.marker e.line e.col =
      spaces ((ErrorContext.margin e.line).length + (e.col - 1)) ++ "^^^" := by
    rw [ErrorContext.marker, Int.add_sub_assoc]
  rw [hannotate, hmarker] at htext
  rw [report, unlines, String.intercalate_append_of_ne_nil (List.cons_ne_nil _ _)
    (List.cons_ne_nil _ _), String.intercalate_singleton, ← unlines, ← htext, hcontext]
  simp only [diagnostic, ErrorContext.ofSource, toString, String.append_assoc]

end SyntaxError

end BlockLang
