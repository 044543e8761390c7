import BlockLang.Proofs.Source.Faithful

/-!
# Indentation

A page can be set into another one: behind its lines, each moved in by the margin of the other, and
so much deeper. Whatever writes a block or an instruction does the same on a page that was set in as
on the page by itself, and comes back to the level it started from. So what it writes on any page is
known from what it writes on a fresh one.

Going back a level is the one step that can tell the two apart, since at the margin there is nowhere
to go back to. It is taken only behind a step in, and behind writing that comes back to its level.
-/

namespace BlockLang

namespace Page

variable {α : Type}

/-- The page `q` set into the page `p`. -/
def inset (p q : Page) : Page where
  lines := p.lines ++ q.lines.map (p.margin ++ ·)
  indent := p.indent + q.indent

/-- A fresh page set into a page adds nothing to it. -/
@[simp] theorem inset_fresh (p : Page) : p.inset {} = p := by simp [inset]

/-- The margins add up. -/
theorem margin_inset (p q : Page) : (p.inset q).margin = p.margin ++ q.margin := by
  rw [margin, margin, margin, inset, Nat.mul_add, List.replicate_add, String.ofList_append]

/-- A line moved in stands behind both margins. -/
theorem inset_line (p q : Page) (s : String) :
    { p.inset q with lines := (p.inset q).lines ++ [(p.inset q).margin ++ s] } =
      p.inset { q with lines := q.lines ++ [q.margin ++ s] } := by
  rw [margin_inset]
  simp [inset, String.append_assoc]

/-- Going back a level inside a page that is set in. -/
theorem inset_dedent (p : Page) {q : Page} (h : 0 < q.indent) :
    { p.inset q with indent := (p.inset q).indent - 1 } =
      p.inset { q with indent := q.indent - 1 } := by
  have hindent : p.indent + q.indent - 1 = p.indent + (q.indent - 1) := by omega
  simp [inset, hindent]

/-- What is written at the margin is not moved in. -/
theorem inset_of_indent_zero {p : Page} (h : p.indent = 0) (q : Page) :
    p.inset q = { lines := p.lines ++ q.lines, indent := q.indent } := by
  have hmargin : p.margin = "" := by simp [margin, h]
  simp [inset, hmargin, h]

/-- A result of writing, with its page set into `p`. -/
def insetResult (p : Page) :
    EStateM.Result WriteError Page α → EStateM.Result WriteError Page α
  | .ok a q => .ok a (p.inset q)
  | .error e q => .error e (p.inset q)

end Page

/-- **Writing that can be indented**: it does the same on a page that is set into another one as on
the page by itself, be it a success or a failure, and when it succeeds it is back at its level. -/
structure Indentable {α : Type} (w : Write α) : Prop where
  inset : ∀ p q : Page, w (p.inset q) = p.insetResult (w q)
  level : ∀ {q q' a}, w q = .ok a q' → q'.indent = q.indent

namespace Indentable

variable {α β : Type} {w : Write α} {v : Write Unit}

/-- Writing on any page is writing on a fresh page that is set in. -/
theorem eq_insetResult (h : Indentable w) (p : Page) : w p = p.insetResult (w {}) := by
  have hinset := h.inset p {}
  rwa [Page.inset_fresh] at hinset

/-- **Success on any page** is success on a fresh one. -/
theorem eq_ok_iff (h : Indentable w) {p q : Page} {a : α} :
    w p = .ok a q ↔ ∃ r, w {} = .ok a r ∧ q = p.inset r := by
  rw [h.eq_insetResult p]
  cases w {} with
  | ok b r => simp [Page.insetResult, eq_comm]
  | error e r => simp [Page.insetResult]

/-- What a fresh page is after writing is at its margin. -/
theorem indent_eq_zero (h : Indentable w) {r : Page} {a : α} (hr : w {} = .ok a r) :
    r.indent = 0 :=
  h.level hr

/-! ## Ways of writing -/

theorem pure (a : α) : Indentable (pure a) where
  inset _ _ := rfl
  level := by
    intro q q' b h
    cases h
    rfl

theorem throw (e : WriteError) : Indentable (throw e : Write α) where
  inset _ _ := rfl
  level := by
    intro q q' a h
    cases h

/-- One piece of writing after another. -/
theorem bind {f : α → Write β} (hw : Indentable w) (hf : ∀ a, Indentable (f a)) :
    Indentable (w >>= f) where
  inset p q := by
    simp only [Bind.bind, EStateM.bind, hw.inset p q]
    cases w q with
    | ok a q₁ => exact (hf a).inset p q₁
    | error e q₁ => rfl
  level := by
    intro q q' b h
    obtain ⟨a, q₁, h₁, h₂⟩ := Write.bind_eq_ok.mp h
    rw [(hf a).level h₂, hw.level h₁]

/-- A line at the current depth. -/
theorem line (s : String) : Indentable (Write.line s) where
  inset p q := congrArg (EStateM.Result.ok ()) (p.inset_line q s)
  level := by
    intro q q' a h
    cases h
    rfl

/-- A text that may not exist. -/
theorem text (x : Except WriteError String) : Indentable (Write.text x) := by
  cases x with
  | ok s => exact pure s
  | error e => exact throw e

/-- Texts that may not exist. -/
theorem texts (xs : List (Except WriteError String)) : Indentable (Write.texts xs) := by
  have hall : Indentable (xs.mapM Write.text) := by
    induction xs with
    | nil => exact pure []
    | cons x xs ih =>
      rw [List.mapM_cons]
      exact (text x).bind fun s => ih.bind fun ss => pure (s :: ss)
  exact hall.bind fun ss => pure _

/-- Writing one level deeper, and going back. -/
theorem deeper (hv : Indentable v) :
    Indentable (Write.indent >>= fun _ => v >>= fun _ => Write.dedent) where
  inset p q := by
    have hindent : Write.indent (p.inset q) =
        .ok () (p.inset { q with indent := q.indent + 1 }) := rfl
    rw [Writes.bind_of_ok hindent, Writes.bind_of_ok (rfl : Write.indent q = _)]
    simp only [Bind.bind, EStateM.bind, hv.inset]
    cases h : v { q with indent := q.indent + 1 } with
    | error e q₁ => rfl
    | ok a q₁ =>
      -- the writing is back at its level, which is not the margin
      have hlevel : q₁.indent = q.indent + 1 := hv.level h
      exact congrArg (EStateM.Result.ok ()) (p.inset_dedent (by omega))
  level := by
    intro q q' a h
    obtain ⟨_, q₁, h₁, h₂⟩ := Write.bind_eq_ok.mp h
    obtain ⟨_, q₂, h₃, h₄⟩ := Write.bind_eq_ok.mp h₂
    cases h₁
    cases h₄
    have hlevel : q₂.indent = q.indent + 1 := hv.level h₃
    change q₂.indent - 1 = q.indent
    omega

/-- A header and what it encloses. -/
theorem enclosed (header : String) (isEmpty : Bool) (hv : Indentable v) :
    Indentable (Write.enclosed header isEmpty v) := by
  unfold Write.enclosed
  cases isEmpty with
  | true => exact line _
  | false =>
    rw [if_neg (by simp)]
    have hinside := hv.deeper.bind fun _ => line "\x7d"
    have hall := (line (header ++ " \x7b")).bind fun _ => hinside
    simpa only [bind_assoc] using hall

/-- Members on lines of their own. -/
theorem memberLines (separator : String) (ms : List String) :
    Indentable (Write.memberLines separator ms) := by
  fun_induction Write.memberLines separator ms with
  | case1 => exact pure ()
  | case2 m => exact line m
  | case3 m ms _ ih => exact (line _).bind fun _ => ih

end Indentable

/-! ## Instructions and blocks -/

namespace Instruction

mutual

/-- **Writing an instruction can be indented.** -/
theorem indentable : ∀ i : Instruction, Indentable i.write
  -- its texts do not look at the page, and its body is indented once more
  | create group arguments => by
    rw [write]
    exact (Indentable.texts _).bind fun _ => .line _
  | declare d => by
    rw [write]
    exact (Indentable.text _).bind fun _ => .line _
  | branch condition body => by
    rw [write]
    exact (Indentable.text _).bind fun _ => (body_indentable body).enclosed _ _
  | foreach names collections body => by
    rw [write]
    exact (Indentable.texts _).bind fun _ => (body_indentable body).enclosed _ _
  | loop start condition step body => by
    rw [write]
    exact (Indentable.text _).bind fun _ => (Indentable.text _).bind fun _ =>
      (Indentable.text _).bind fun _ => (body_indentable body).enclosed _ _

theorem body_indentable : ∀ b : List Instruction, Indentable (writeBody b)
  | [] => by
    rw [writeBody]
    exact .pure ()
  | i :: is => by
    rw [writeBody]
    exact (indentable i).bind fun _ => body_indentable is

end

end Instruction

/-- **Writing a block can be indented.** -/
theorem Block.indentable (b : Block) : Indentable b.write := by
  cases b with
  | data name fields => exact (Indentable.memberLines _ _).enclosed _ _
  | group name parameters instances => exact (Indentable.memberLines _ _).enclosed _ _
  | action name body => exact (Instruction.body_indentable body).enclosed _ _
  | run actions body => exact (Instruction.body_indentable body).enclosed _ _

/-- Behind a block at the margin, writing goes on below the lines that the block has on a fresh
page. -/
theorem Block.write_bind_eq_ok {b : Block} {w : Write Unit} {p q : Page} (hp : p.indent = 0) :
    (b.write >>= fun _ => w) p = .ok () q ↔
      ∃ r, b.write {} = .ok () r ∧ w { lines := p.lines ++ r.lines } = .ok () q := by
  rw [Write.bind_eq_ok]
  constructor
  · rintro ⟨_, p₁, h₁, h₂⟩
    obtain ⟨r, hr, rfl⟩ := b.indentable.eq_ok_iff.mp h₁
    rw [Page.inset_of_indent_zero hp, b.indentable.indent_eq_zero hr] at h₂
    exact ⟨r, hr, h₂⟩
  · rintro ⟨r, hr, h⟩
    refine ⟨(), p.inset r, b.indentable.eq_ok_iff.mpr ⟨r, hr, rfl⟩, ?_⟩
    rw [Page.inset_of_indent_zero hp, b.indentable.indent_eq_zero hr]
    exact h

/-! ## Programs -/

namespace Program

/-- Blocks below others are written each behind a blank line. -/
theorem writeLater_eq_ok {bs : List Block} {ls : List String} {q : Page} :
    writeLater bs { lines := ls } = .ok () q ↔
      ∃ pages : List Page, List.Forall₂ (fun b r => b.write {} = .ok () r) bs pages ∧
        q = { lines := ls ++ pages.flatMap fun r => "" :: r.lines } := by
  induction bs generalizing ls with
  | nil => simp [writeLater, pure, EStateM.pure, eq_comm]
  | cons b bs ih =>
    have hblank : writeLater (b :: bs) { lines := ls } =
        (b.write >>= fun _ => writeLater bs) { lines := ls ++ [""] } := rfl
    rw [hblank, Block.write_bind_eq_ok rfl]
    simp only [ih, List.forall₂_cons_left_iff]
    constructor
    · rintro ⟨r, hr, pages, hpages, rfl⟩
      exact ⟨r :: pages, ⟨r, pages, hr, hpages, rfl⟩, by simp⟩
    · rintro ⟨_, ⟨r, pages, hr, hpages, rfl⟩, rfl⟩
      exact ⟨r, hr, pages, hpages, by simp⟩

/-- Pages with a blank line between them. -/
theorem intercalate_lines (r : Page) (pages : List Page) :
    [""].intercalate ((r :: pages).map Page.lines) =
      r.lines ++ pages.flatMap fun r => "" :: r.lines := by
  induction pages generalizing r with
  | nil => simp
  | cons r' pages ih =>
    rw [List.map_cons, List.map_cons, List.intercalate_cons_cons, ← List.map_cons, ih]
    simp

/-- **A program on a fresh page** is its blocks on fresh pages, with a blank line between them. -/
theorem write_eq_ok {bs : List Block} {q : Page} :
    write ⟨bs⟩ {} = .ok () q ↔
      ∃ pages : List Page, List.Forall₂ (fun b r => b.write {} = .ok () r) bs pages ∧
        q = { lines := [""].intercalate (pages.map Page.lines) } := by
  cases bs with
  | nil => simp [write, pure, EStateM.pure, eq_comm]
  | cons b bs =>
    have hfirst : write ⟨b :: bs⟩ {} = (b.write >>= fun _ => writeLater bs) {} := rfl
    rw [hfirst, Block.write_bind_eq_ok rfl]
    simp only [writeLater_eq_ok, List.forall₂_cons_left_iff]
    constructor
    · rintro ⟨r, hr, pages, hpages, rfl⟩
      exact ⟨r :: pages, ⟨r, pages, hr, hpages, rfl⟩, by rw [intercalate_lines]; rfl⟩
    · rintro ⟨_, ⟨r, pages, hr, hpages, rfl⟩, rfl⟩
      exact ⟨r, hr, pages, hpages, by rw [intercalate_lines]; rfl⟩

end Program

/-! ## Anything written on lines of its own -/

/-- Is the node written on lines of its own? -/
def Node.IsStatement : Node → Prop
  | block _ | instruction _ => True
  | _ => False

theorem Node.IsStatement.indentable {n : Node} (h : n.IsStatement) :
    Indentable (Datum.node n).write := by
  cases n with
  | block b => exact b.indentable
  | instruction i => exact i.indentable
  | _ => exact h.elim

namespace Datum

/-- **Writing is compositional in the indentation.** On any page a block or an instruction is
written exactly if it is written on a fresh page; its lines are then those of the fresh page, moved
in by the margin, and the page is back at its depth. A program on a fresh page has the lines that
its blocks have on fresh pages, with a blank line between two blocks. -/
theorem write_compositional :
    (∀ n : Node, n.IsStatement → ∀ p q : Page, (node n).write p = .ok () q ↔
      ∃ r, (node n).write {} = .ok () r ∧
        q = { lines := p.lines ++ r.lines.map (p.margin ++ ·), indent := p.indent }) ∧
    ∀ (bs : List Block) (q : Page), (node (.program ⟨bs⟩)).write {} = .ok () q ↔
      ∃ pages : List Page,
        List.Forall₂ (fun b r => (node (.block b)).write {} = .ok () r) bs pages ∧
        q = { lines := [""].intercalate (pages.map Page.lines) } := by
  refine ⟨fun n hn p q => ?_, fun bs q => Program.write_eq_ok⟩
  rw [hn.indentable.eq_ok_iff]
  refine exists_congr fun r => and_congr_right fun hr => ?_
  rw [Page.inset, hn.indentable.indent_eq_zero hr, Nat.add_zero]

/-- `if x { let y = 1 }`. -/
def guardedDeclaration : Instruction := .branch (.value "x") [.declare ⟨"y", .value "1"⟩]

/-- A branch in the body of an action: the three lines of the branch are moved in by one level. -/
theorem write_compositional_guardedDeclaration :
    Node.IsStatement (.instruction guardedDeclaration) ∧
      (node (.instruction guardedDeclaration)).write { lines := ["do f \x7b"], indent := 1 } =
        .ok () { lines := ["do f \x7b", "    if x \x7b", "        let y = 1", "    \x7d"],
                 indent := 1 } := by
  have hstatement : Node.IsStatement (.instruction guardedDeclaration) := trivial
  have hfresh : (node (.instruction guardedDeclaration)).write {} =
      .ok () { lines := ["if x \x7b", "    let y = 1", "\x7d"] } := by cbv
  exact ⟨hstatement, (write_compositional.1 _ hstatement _ _).mpr ⟨_, hfresh, by decide +kernel⟩⟩

end Datum

end BlockLang
