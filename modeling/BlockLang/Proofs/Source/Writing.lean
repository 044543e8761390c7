import BlockLang.Proofs.Source.Terminals
import BlockLang.Source.Page

/-!
# Reading what was written

The source text of a tree is read as the terminals of the tree. Every piece of it is followed by a
blank, by punctuation or by the end of its line, so no piece runs into the next; and a page is read
line by line.
-/

namespace BlockLang

/-! ## Expressions -/

/-- **The source text of an expression** is read as its terminals. -/
theorem Expr.source_reads {e : Expr} {s : String} (h : e.source = .ok s) :
    Reads .canonical s.toList e.terminals := by
  induction e generalizing s with
  | value text => exact (valueSource_reads h).1
  | binary op lhs rhs ihl ihr =>
    obtain ⟨⟨l, hl⟩, ⟨r, hr⟩, -, -⟩ := writable_binary.mp ⟨s, h⟩
    -- both groupings write the same text, once none of the operands is refused
    have hs : s = operationText op l r := by
      have hboth : (do return operationText op (← lhs.source) (← rhs.source)) =
          Except.ok (operationText op l r) := by
        rw [hl, hr]
        rfl
      rw [source] at h
      split at h
      · split at h
        · cases h
        · rw [hboth] at h
          cases h
          rfl
      · split at h
        · cases h
        · rw [hboth] at h
          cases h
          rfl
    have hlist : s.toList = l.toList ++ ' ' :: op.char :: ' ' :: r.toList := by
      rw [hs, operationText]
      simp only [toString, String.toList_append, List.append_assoc]
      cases op <;> rfl
    rw [hlist]
    exact (ihl hl).append (stops_cons.mpr (by decide))
      (.space (Reads.operator op (.space (ihr hr))))

theorem Declaration.source_reads {d : Declaration} {s : String} (hn : Lone d.name)
    (h : d.source = .ok s) : Reads .canonical s.toList d.terminals := by
  unfold Declaration.source at h
  cases hv : d.value.source with
  | error e =>
    rw [hv] at h
    cases h
  | ok t =>
    rw [hv] at h
    cases h
    have hlist : (s!"{d.name} = {t}").toList = d.name.toList ++ ' ' :: '=' :: ' ' :: t.toList := by
      simp only [toString, String.toList_append, List.append_assoc]
      rfl
    rw [hlist]
    exact (lone_iff.mp hn).append (stops_cons.mpr (by decide))
      (.space (Reads.delimiter .equal (.space (Expr.source_reads hv))))

theorem Progression.source_reads {p : Progression} {s : String} (hn : ∀ n ∈ p.names, Lone n)
    (h : p.source = .ok s) : Reads .canonical s.toList p.terminals := by
  cases p with
  | assign d => exact Declaration.source_reads (hn d.name (by simp [names])) h
  | evaluate e => exact Expr.source_reads h

/-! ## Texts with commas between them -/

/-- Texts that are read one by one are read with commas between them. -/
theorem intercalate_reads {α : Type} {f : α → List Terminal} {g : α → String} (as : List α)
    (h : ∀ a ∈ as, Reads .canonical (g a).toList (f a)) :
    Reads .canonical (", ".intercalate (as.map g)).toList (commaList f as) := by
  induction as with
  | nil => exact .nil
  | cons a as ih =>
    rw [List.forall_mem_cons] at h
    cases as with
    | nil =>
      have hlist : (", ".intercalate (List.map g [a])).toList = (g a).toList := by simp
      rw [hlist]
      simpa [commaList] using h.1
    | cons b bs =>
      have hlist : (", ".intercalate (List.map g (a :: b :: bs))).toList =
          (g a).toList ++ ',' :: ' ' :: (", ".intercalate (List.map g (b :: bs))).toList := by
        rw [List.map_cons, List.map_cons, String.intercalate_cons_cons, String.toList_append,
          String.toList_append, List.append_assoc]
        rfl
      rw [hlist, commaList, List.flatMap_cons, List.cons_append]
      exact h.1.append (stops_cons.mpr (by decide))
        (Reads.delimiter .comma (.space (ih h.2)))

/-- Lone names with commas between them. -/
theorem names_read {ns : List String} (h : ∀ n ∈ ns, Lone n) :
    Reads .canonical (", ".intercalate ns).toList (commaList (fun n => [.symbol n]) ns) := by
  have hmap := intercalate_reads (g := id) (f := fun n => [.symbol n]) ns
    (fun n hn => lone_iff.mp (h n hn))
  rwa [List.map_id] at hmap

/-! ## Members -/

/-- A name and its type. -/
theorem typed_reads {n t : String} (hn : Lone n) (ht : Lone t) :
    Reads .canonical (s!"{n}: {t}").toList (pairTerminals (.delimiter .colon) n t) := by
  have hlist : (s!"{n}: {t}").toList = n.toList ++ ':' :: ' ' :: t.toList := by
    simp only [toString, String.toList_append, List.append_assoc]
    rfl
  rw [hlist]
  exact (lone_iff.mp hn).append (stops_cons.mpr (by decide))
    (Reads.delimiter .colon (.space (lone_iff.mp ht)))

theorem FieldValue.source_reads {v : FieldValue} (hn : Lone v.name) (hv : Lone v.value) :
    Reads .canonical v.source.toList v.terminals := by
  have hlist : v.source.toList = v.name.toList ++ ' ' :: '=' :: ' ' :: v.value.toList := by
    simp only [source, toString, String.toList_append, List.append_assoc]
    rfl
  rw [hlist]
  exact (lone_iff.mp hn).append (stops_cons.mpr (by decide))
    (.space (Reads.delimiter .equal (.space (lone_iff.mp hv))))

/-- A name and what it has in parentheses. -/
theorem parenthesized_reads {n s : String} {ws : List Terminal} (hn : Lone n)
    (hs : Reads .canonical s.toList ws) :
    Reads .canonical (n.toList ++ '(' :: (s.toList ++ [')'])) (.symbol n :: parenthesized ws) :=
  (lone_iff.mp hn).append (stops_cons.mpr (by decide))
    (Reads.delimiter .leftParen (hs.append (stops_cons.mpr (by decide))
      (Reads.delimiter .rightParen .nil)))

theorem DataInstance.source_reads {d : DataInstance} (hn : Lone d.name)
    (hv : ∀ v ∈ d.values, Lone v.name ∧ Lone v.value) :
    Reads .canonical d.source.toList d.terminals := by
  have hvalues := intercalate_reads (g := FieldValue.source) (f := FieldValue.terminals)
    d.values fun v hmem => FieldValue.source_reads (hv v hmem).1 (hv v hmem).2
  have hlist : d.source.toList = d.name.toList ++
      '(' :: ((", ".intercalate (d.values.map FieldValue.source)).toList ++ [')']) := by
    simp only [source, String.toList_append, List.append_assoc]
    rfl
  rw [hlist]
  exact parenthesized_reads hn hvalues

/-! ## Pages -/

/-- The characters of lines, each ended by a line feed. -/
def unlined (ls : List String) : List Char := ls.flatMap fun l => l.toList ++ ['\n']

theorem unlined_append (ls ms : List String) : unlined (ls ++ ms) = unlined ls ++ unlined ms :=
  List.flatMap_append

/-- The text of a page is its lines. -/
theorem Page.toList_text (p : Page) : p.text.toList = unlined p.lines := by
  obtain ⟨ls, n⟩ := p
  have hjoin : ∀ (l : String) (ls : List String),
      ("\n".intercalate (l :: ls) ++ "\n").toList = unlined (l :: ls) := by
    intro l ls
    induction ls generalizing l with
    | nil => simp [unlined]
    | cons m ls ih =>
      have hrest := ih m
      rw [String.intercalate_cons_cons, String.append_assoc, String.toList_append, hrest,
        String.toList_append]
      rfl
  cases ls with
  | nil => rfl
  | cons l ls => exact hjoin l ls

/-- **Writing**: whatever `w` is given, it adds lines that are read as `ws` in front of anything
else, and leaves the depth as it was. -/
def Writes (w : Write Unit) (ws : List Terminal) : Prop :=
  ∀ p : Page, ∃ ls, w p = .ok () { lines := p.lines ++ ls, indent := p.indent } ∧
    ∀ ds xs, Reads .canonical ds xs → Reads .canonical (unlined ls ++ ds) (ws ++ xs)

namespace Writes

variable {w w' : Write Unit} {ws ws' : List Terminal}

theorem pure : Writes (pure ()) [] := by
  intro p
  exact ⟨[], by simp [Pure.pure, EStateM.pure], fun _ _ h => h⟩

theorem bind_of_ok {α β : Type} {w : Write α} {f : α → Write β} {p p' : Page} {a : α}
    (h : w p = .ok a p') : (w >>= f) p = f a p' := by
  simp only [bind, EStateM.bind, h]

/-- One piece of writing after another. -/
theorem seq (hw : Writes w ws) (hw' : Writes w' ws') :
    Writes (w >>= fun _ => w') (ws ++ ws') := by
  intro p
  obtain ⟨ls, hls, hread⟩ := hw p
  obtain ⟨ls', hls', hread'⟩ := hw' { lines := p.lines ++ ls, indent := p.indent }
  refine ⟨ls ++ ls', ?_, fun ds xs h => ?_⟩
  · rw [bind_of_ok hls, hls', List.append_assoc]
  · rw [unlined_append, List.append_assoc, List.append_assoc]
    exact hread _ _ (hread' _ _ h)

/-- An empty line. -/
theorem blank : Writes Write.blank [] := by
  intro p
  refine ⟨[""], rfl, fun ds xs h => ?_⟩
  exact .blank (by decide) h

/-- A line of its own, behind its margin. -/
theorem line {s : String} (h : Reads .canonical s.toList ws) : Writes (Write.line s) ws := by
  intro p
  refine ⟨[p.margin ++ s], rfl, fun ds xs hd => ?_⟩
  have hlist : unlined [p.margin ++ s] ++ ds =
      List.replicate (4 * p.indent) ' ' ++ (s.toList ++ '\n' :: ds) := by
    simp [unlined, Page.margin, String.toList_append]
  rw [hlist]
  refine Reads.blanks ?_ (h.append (stops_cons.mpr (by decide)) (.blank (by decide) hd))
  intro c hc
  rw [List.eq_of_mem_replicate hc]
  decide

/-- Writing one level deeper, and going back. -/
theorem indented (hw : Writes w ws) (hw' : Writes w' ws') :
    Writes (Write.indent >>= fun _ => w >>= fun _ => Write.dedent >>= fun _ => w') (ws ++ ws') := by
  intro p
  obtain ⟨ls, hls, hread⟩ := hw { lines := p.lines, indent := p.indent + 1 }
  obtain ⟨ls', hls', hread'⟩ := hw' { lines := p.lines ++ ls, indent := p.indent }
  refine ⟨ls ++ ls', ?_, fun ds xs h => ?_⟩
  · have hindent : Write.indent p = .ok () { lines := p.lines, indent := p.indent + 1 } := rfl
    have hdedent : Write.dedent { lines := p.lines ++ ls, indent := p.indent + 1 } =
        .ok () { lines := p.lines ++ ls, indent := p.indent } := rfl
    rw [bind_of_ok hindent, bind_of_ok hls, bind_of_ok hdedent, hls', List.append_assoc]
  · rw [unlined_append, List.append_assoc, List.append_assoc]
    exact hread _ _ (hread' _ _ h)

/-- **A header and what it encloses**, which is nothing if it is said to be empty. -/
theorem enclosed {header : String} {isEmpty : Bool} {inside : Write Unit} {hs is : List Terminal}
    (hheader : Reads .canonical header.toList hs) (hempty : isEmpty = true → is = [])
    (hinside : Writes inside is) :
    Writes (Write.enclosed header isEmpty inside) (hs ++ braced is) := by
  unfold Write.enclosed
  cases isEmpty with
  | true =>
    rw [if_pos rfl, hempty rfl]
    refine line ?_
    rw [String.toList_append]
    exact hheader.append (stops_cons.mpr (by decide))
      (.space (Reads.delimiter .leftBrace (Reads.delimiter .rightBrace .nil)))
  | false =>
    rw [if_neg (by simp)]
    have hopen : Reads .canonical (header ++ " \x7b").toList
        (hs ++ [.mark (.delimiter .leftBrace)]) := by
      rw [String.toList_append]
      exact hheader.append (stops_cons.mpr (by decide))
        (.space (Reads.delimiter .leftBrace .nil))
    have hclose : Reads .canonical "\x7d".toList [.mark (.delimiter .rightBrace)] :=
      Reads.delimiter .rightBrace .nil
    have hall := (line hopen).seq (hinside.indented (line hclose))
    simpa [braced] using hall

/-- Members on lines of their own. -/
theorem memberLines {α : Type} {f : α → List Terminal} {g : α → String} (as : List α)
    (h : ∀ a ∈ as, Reads .canonical (g a).toList (f a)) :
    Writes (Write.memberLines "," (as.map g)) (commaList f as) ∧
      Writes (Write.memberLines "" (as.map g)) (as.flatMap f) := by
  induction as with
  | nil => exact ⟨pure, pure⟩
  | cons a as ih =>
    rw [List.forall_mem_cons] at h
    obtain ⟨ihc, ihp⟩ := ih h.2
    cases as with
    | nil =>
      refine ⟨?_, ?_⟩
      · simpa [commaList, Write.memberLines] using line h.1
      · simpa [Write.memberLines] using line h.1
    | cons b bs =>
      refine ⟨?_, ?_⟩
      · -- a member that others follow has its comma at the end of its line
        have hcomma : Reads .canonical (g a ++ ",").toList
            (f a ++ [.mark (.delimiter .comma)]) := by
          rw [String.toList_append]
          exact h.1.append (stops_cons.mpr (by decide)) (Reads.delimiter .comma .nil)
        simpa [commaList, Write.memberLines] using (line hcomma).seq ihc
      · have hplain : Reads .canonical (g a ++ "").toList (f a) := by
          rw [String.append_empty]
          exact h.1
        simpa [Write.memberLines] using (line hplain).seq ihp

end Writes

end BlockLang
