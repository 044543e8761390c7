import BlockLang.Proofs.Recognition.Program
import BlockLang.Proofs.Source.Writing

/-!
# Faithful writing

Writing succeeds exactly if every expression in a tree has a source text, and what it writes is
read as the terminals of the tree if the names in it are lone symbols. With what those terminals
span, a written program is read back as itself.
-/

namespace BlockLang

open BlockLang.Writes (bind_of_ok)

/-! ## When writing succeeds -/

namespace Write

variable {α β : Type}

theorem bind_eq_ok {w : Write α} {f : α → Write β} {p p' : Page} {b : β} :
    (w >>= f) p = .ok b p' ↔ ∃ a p₁, w p = .ok a p₁ ∧ f a p₁ = .ok b p' := by
  cases h : w p with
  | ok a p₁ => simp [bind, EStateM.bind, h]
  | error e p₁ => simp [bind, EStateM.bind, h]

/-- A text that exists is handed on. -/
theorem text_bind_ok (s : String) (f : String → Write α) : (text (.ok s) >>= f) = f s := rfl

theorem text_eq_ok {x : Except WriteError String} {s : String} {p p' : Page}
    (h : text x p = .ok s p') : x = .ok s := by
  cases x with
  | error e => cases h
  | ok t =>
    cases h
    rfl

/-- Texts that exist are joined. -/
theorem texts_ok {g : α → String} (as : List α) :
    texts (as.map fun a => .ok (g a)) = pure (", ".intercalate (as.map g)) := by
  have hmap : (as.map fun a => (.ok (g a) : Except WriteError String)).mapM text =
      (pure (as.map g) : Write (List String)) := by
    induction as with
    | nil => rfl
    | cons a as ih =>
      rw [List.map_cons, List.mapM_cons, text_bind_ok, ih]
      rfl
  rw [texts, hmap]
  rfl

theorem mapM_text_eq_ok {xs : List (Except WriteError String)} {ss : List String} {p p' : Page}
    (h : xs.mapM text p = .ok ss p') : ∀ x ∈ xs, ∃ s, x = .ok s := by
  induction xs generalizing p p' ss with
  | nil => simp
  | cons x xs ih =>
    rw [List.mapM_cons] at h
    obtain ⟨s, p₁, h₁, h₂⟩ := bind_eq_ok.mp h
    obtain ⟨ss', p₂, h₃, -⟩ := bind_eq_ok.mp h₂
    rw [List.forall_mem_cons]
    exact ⟨⟨s, text_eq_ok h₁⟩, ih h₃⟩

/-- Writing what is enclosed in something that was written succeeded too. -/
theorem enclosed_eq_ok {header : String} {isEmpty : Bool} {inside : Write Unit} {p p' : Page}
    (h : enclosed header isEmpty inside p = .ok () p') (he : isEmpty = false) :
    ∃ p₁ p₂, inside p₁ = .ok () p₂ := by
  subst he
  unfold enclosed at h
  rw [if_neg (by simp)] at h
  obtain ⟨_, p₁, -, h₁⟩ := bind_eq_ok.mp h
  obtain ⟨_, p₂, -, h₂⟩ := bind_eq_ok.mp h₁
  obtain ⟨_, p₃, h₃, -⟩ := bind_eq_ok.mp h₂
  exact ⟨p₂, p₃, h₃⟩

end Write

theorem Declaration.writable_of_source {d : Declaration} {s : String} (h : d.source = .ok s) :
    d.value.Writable := by
  unfold Declaration.source at h
  cases hv : d.value.source with
  | error e =>
    rw [hv] at h
    cases h
  | ok t => exact ⟨t, hv⟩

theorem Progression.writable_of_source {p : Progression} {s : String} (h : p.source = .ok s) :
    p.expr.Writable := by
  cases p with
  | assign d => exact Declaration.writable_of_source h
  | evaluate e => exact ⟨s, h⟩

namespace Instruction

/-- An empty body has no expressions, and any other was written if it was enclosed. -/
theorem writable_of_enclosed {b : List Instruction} {header : String} {p p' : Page}
    (hb : ∀ {p p'}, writeBody b p = .ok () p' → ∀ j ∈ allIn b, ∀ e ∈ j.exprs, e.Writable)
    (h : Write.enclosed header b.isEmpty (writeBody b) p = .ok () p') :
    ∀ j ∈ allIn b, ∀ e ∈ j.exprs, e.Writable := by
  cases b with
  | nil => simp [allIn]
  | cons i is =>
    obtain ⟨p₁, p₂, h₁⟩ := Write.enclosed_eq_ok h rfl
    exact hb h₁

mutual

/-- Whatever expression stands in an instruction that was written has a source text. -/
theorem writable_of_write : ∀ (i : Instruction) {p p' : Page}, i.write p = .ok () p' →
    ∀ j ∈ i.all, ∀ e ∈ j.exprs, e.Writable
  -- each text is asked for before anything is put on the page
  | create group arguments, p, p', h => by
    unfold write at h
    obtain ⟨values, p₁, h₁, -⟩ := Write.bind_eq_ok.mp h
    obtain ⟨ss, p₂, h₂, -⟩ := Write.bind_eq_ok.mp h₁
    have hall := Write.mapM_text_eq_ok h₂
    simpa [all, exprs, Expr.Writable, Expr.source] using hall
  | declare d, p, p', h => by
    unfold write at h
    obtain ⟨s, p₁, h₁, -⟩ := Write.bind_eq_ok.mp h
    simpa [all, exprs] using Declaration.writable_of_source (Write.text_eq_ok h₁)
  | branch condition body, p, p', h => by
    unfold write at h
    obtain ⟨s, p₁, h₁, h₂⟩ := Write.bind_eq_ok.mp h
    rw [all, List.forall_mem_cons]
    refine ⟨?_, writable_of_enclosed (fun hb => writable_of_writeBody body hb) h₂⟩
    simpa [exprs] using ⟨s, Write.text_eq_ok h₁⟩
  | foreach names collections body, p, p', h => by
    unfold write at h
    obtain ⟨texts, p₁, h₁, h₂⟩ := Write.bind_eq_ok.mp h
    obtain ⟨ss, p₂, h₃, -⟩ := Write.bind_eq_ok.mp h₁
    rw [all, List.forall_mem_cons]
    refine ⟨?_, writable_of_enclosed (fun hb => writable_of_writeBody body hb) h₂⟩
    have hall := Write.mapM_text_eq_ok h₃
    simpa [exprs, Expr.Writable] using hall
  | loop start condition step body, p, p', h => by
    unfold write at h
    obtain ⟨s, p₁, h₁, h₂⟩ := Write.bind_eq_ok.mp h
    obtain ⟨t, p₂, h₃, h₄⟩ := Write.bind_eq_ok.mp h₂
    obtain ⟨u, p₃, h₅, h₆⟩ := Write.bind_eq_ok.mp h₄
    rw [all, List.forall_mem_cons]
    refine ⟨?_, writable_of_enclosed (fun hb => writable_of_writeBody body hb) h₆⟩
    have hstart := Declaration.writable_of_source (Write.text_eq_ok h₁)
    have hcondition : condition.Writable := ⟨t, Write.text_eq_ok h₃⟩
    have hstep := Progression.writable_of_source (Write.text_eq_ok h₅)
    simpa [exprs] using ⟨hstart, hcondition, hstep⟩

theorem writable_of_writeBody : ∀ (b : List Instruction) {p p' : Page},
    writeBody b p = .ok () p' → ∀ j ∈ allIn b, ∀ e ∈ j.exprs, e.Writable
  | [], p, p', _ => by simp [allIn]
  | i :: is, p, p', h => by
    unfold writeBody at h
    obtain ⟨_, p₁, h₁, h₂⟩ := Write.bind_eq_ok.mp h
    rw [allIn, List.forall_mem_append]
    exact ⟨writable_of_write i h₁, writable_of_writeBody is h₂⟩

end

end Instruction

/-- Whatever expression stands in a block that was written has a source text. -/
theorem Block.writable_of_write {b : Block} {p p' : Page} (h : b.write p = .ok () p') :
    ∀ i ∈ b.instructions, ∀ e ∈ i.exprs, e.Writable := by
  cases b with
  | data => simp [instructions]
  | group => simp [instructions]
  | action name body =>
    exact Instruction.writable_of_enclosed (fun hb => Instruction.writable_of_writeBody body hb) h
  | run actions body =>
    exact Instruction.writable_of_enclosed (fun hb => Instruction.writable_of_writeBody body hb) h

/-! ## What is written -/

theorem Declaration.source_of_writable {d : Declaration} (h : d.value.Writable) :
    ∃ s, d.source = .ok s := by
  obtain ⟨t, ht⟩ := h
  exact ⟨s!"{d.name} = {t}", by rw [source, ht]; rfl⟩

theorem Progression.source_of_writable {p : Progression} (h : p.expr.Writable) :
    ∃ s, p.source = .ok s := by
  cases p with
  | assign d => exact Declaration.source_of_writable h
  | evaluate e => exact h

/-- Expressions that can be written are written with commas between them. -/
theorem texts_of_writable {es : List Expr} (h : ∀ e ∈ es, e.Writable) :
    ∃ s, Write.texts (es.map Expr.source) = pure s ∧
      Reads .canonical s.toList (commaList Expr.terminals es) := by
  let g : Expr → String := fun e => (e.source.toOption).getD ""
  have hg : ∀ e ∈ es, e.source = .ok (g e) := by
    intro e he
    obtain ⟨s, hs⟩ := h e he
    simp [g, hs, Except.toOption]
  have hmap : es.map Expr.source = es.map fun e => .ok (g e) := List.map_congr_left hg
  refine ⟨", ".intercalate (es.map g), ?_, ?_⟩
  · rw [hmap, Write.texts_ok]
  · exact intercalate_reads _ fun e he => Expr.source_reads (hg e he)

/-- A header and a body. -/
theorem Reads.writes_body {header : String} {hs : List Terminal} {b : List Instruction}
    (hheader : Reads .canonical header.toList hs)
    (hb : Writes (Instruction.writeBody b) (Instruction.bodyTerminals b)) :
    Writes (Write.enclosed header b.isEmpty (Instruction.writeBody b))
      (hs ++ braced (Instruction.bodyTerminals b)) := by
  refine Writes.enclosed hheader ?_ hb
  intro he
  rw [List.isEmpty_iff.mp he]
  rfl

/-! ### Lines and headers -/

section

variable {s t u : String} {ws xs ys : List Terminal}

/-- A word of the language, a space, and what is read behind it. -/
theorem word_reads {word : String} {k : Keyword} (hword : word.toList = k.spelling.toList ++ [' '])
    (hs : Reads .canonical s.toList ws) :
    Reads .canonical (word ++ s).toList (.mark (.keyword k) :: ws) := by
  rw [String.toList_append, hword, List.append_assoc]
  exact Reads.keyword k stops_space (.space hs)

theorem create_reads {g : String} (hg : Lone g) (hs : Reads .canonical s.toList ws) :
    Reads .canonical (s!"create {g}({s})").toList
      (.mark (.keyword .create) :: .symbol g :: parenthesized ws) := by
  have hlist : (s!"create {g}({s})").toList =
      Keyword.create.spelling.toList ++ ' ' :: (g.toList ++ '(' :: (s.toList ++ [')'])) := by
    simp only [toString, String.toList_append, List.append_assoc]
    rfl
  rw [hlist]
  exact Reads.keyword .create stops_space
    (.space (parenthesized_reads hg hs))

theorem foreach_reads (hs : Reads .canonical s.toList ws) (ht : Reads .canonical t.toList xs) :
    Reads .canonical (s!"foreach {s} in {t}").toList
      (.mark (.keyword .foreach) :: (ws ++ .mark (.keyword .inWord) :: xs)) := by
  have hlist : (s!"foreach {s} in {t}").toList = Keyword.foreach.spelling.toList ++
      ' ' :: (s.toList ++ ' ' :: (Keyword.inWord.spelling.toList ++ ' ' :: t.toList)) := by
    simp only [toString, String.toList_append, List.append_assoc]
    rfl
  have hin := Reads.keyword .inWord stops_space (.space ht)
  rw [hlist]
  exact Reads.keyword .foreach stops_space
    (.space (hs.append stops_space (.space hin)))

theorem for_reads (hs : Reads .canonical s.toList ws) (ht : Reads .canonical t.toList xs)
    (hu : Reads .canonical u.toList ys) :
    Reads .canonical (s!"for let {s}; {t}; {u}").toList
      (.mark (.keyword .forWord) :: .mark (.keyword .letWord) :: (ws ++
        .mark (.delimiter .semicolon) :: (xs ++ .mark (.delimiter .semicolon) :: ys))) := by
  have hlist : (s!"for let {s}; {t}; {u}").toList =
      Keyword.forWord.spelling.toList ++ ' ' :: (Keyword.letWord.spelling.toList ++
        ' ' :: (s.toList ++ ';' :: ' ' :: (t.toList ++ ';' :: ' ' :: u.toList))) := by
    simp only [toString, String.toList_append, List.append_assoc]
    rfl
  have hlater := ht.append (stops_cons.mpr (by decide))
    (Reads.delimiter .semicolon (.space hu))
  have hclauses := hs.append (stops_cons.mpr (by decide))
    (Reads.delimiter .semicolon (.space hlater))
  have hlet := Reads.keyword .letWord stops_space (.space hclauses)
  rw [hlist]
  exact Reads.keyword .forWord stops_space (.space hlet)

theorem group_reads {n : String} (hn : Lone n) (hs : Reads .canonical s.toList ws) :
    Reads .canonical (s!"group {n}({s})").toList
      (.mark (.keyword .group) :: .symbol n :: parenthesized ws) := by
  have hlist : (s!"group {n}({s})").toList =
      Keyword.group.spelling.toList ++ ' ' :: (n.toList ++ '(' :: (s.toList ++ [')'])) := by
    simp only [toString, String.toList_append, List.append_assoc]
    rfl
  rw [hlist]
  exact Reads.keyword .group stops_space
    (.space (parenthesized_reads hn hs))

theorem run_reads (hs : Reads .canonical s.toList ws) :
    Reads .canonical (s!"run ({s})").toList (.mark (.keyword .run) :: parenthesized ws) := by
  have hlist : (s!"run ({s})").toList =
      Keyword.run.spelling.toList ++ ' ' :: '(' :: (s.toList ++ [')']) := by
    simp only [toString, String.toList_append, List.append_assoc]
    rfl
  have hclose := hs.append (stops_cons.mpr (by decide)) (Reads.delimiter .rightParen .nil)
  rw [hlist]
  exact Reads.keyword .run stops_space
    (.space (Reads.delimiter .leftParen hclose))

end

namespace Instruction

/-- Are the names in the instruction, outside its body, lone symbols? -/
def Named (i : Instruction) : Prop := ∀ n ∈ i.names, Lone n

mutual

/-- **What is written of an instruction** is read as its terminals. -/
theorem writes : ∀ i : Instruction, (∀ j ∈ i.all, j.Named ∧ ∀ e ∈ j.exprs, e.Writable) →
    Writes i.write i.terminals
  | create group arguments, h => by
    obtain ⟨hnames, hw⟩ := h _ (mem_all _)
    obtain ⟨s, hs, hread⟩ := texts_of_writable hw
    -- arguments are values, written one by one as expressions are
    have hsource : Expr.source ∘ Expr.value = valueSource := rfl
    have hterminals : commaList Expr.terminals (arguments.map .value) =
        commaList valueTerminals arguments := by
      cases arguments with
      | nil => rfl
      | cons a as => simp [commaList, List.flatMap_map, Expr.terminals]
    rw [exprs, List.map_map, hsource] at hs
    rw [exprs, hterminals] at hread
    rw [write, hs, pure_bind]
    exact Writes.line (create_reads (hnames group (by simp [names])) hread)
  | declare d, h => by
    obtain ⟨hnames, hw⟩ := h _ (mem_all _)
    obtain ⟨s, hs⟩ := Declaration.source_of_writable (hw d.value (by simp [exprs]))
    have hread := Declaration.source_reads (hnames d.name (by simp [names])) hs
    rw [write, hs, Write.text_bind_ok]
    exact Writes.line (word_reads rfl hread)
  | branch condition body, h => by
    obtain ⟨-, hw⟩ := h _ (mem_all _)
    rw [all, List.forall_mem_cons] at h
    obtain ⟨s, hs⟩ := hw condition (by simp [exprs])
    have hheader : Reads .canonical (s!"if {s}").toList
        (.mark (.keyword .ifWord) :: condition.terminals) :=
      word_reads rfl (Expr.source_reads hs)
    rw [write, hs, Write.text_bind_ok]
    exact hheader.writes_body (body_writes body h.2)
  | foreach ns collections body, h => by
    obtain ⟨hnames, hw⟩ := h _ (mem_all _)
    rw [all, List.forall_mem_cons] at h
    obtain ⟨s, hs, hread⟩ := texts_of_writable hw
    have hnamed : ∀ n ∈ ns, Lone n := hnames
    rw [exprs] at hs hread
    have hheader := foreach_reads (names_read hnamed) hread
    rw [write, hs, pure_bind]
    simpa [terminals] using hheader.writes_body (body_writes body h.2)
  | loop start condition step body, h => by
    obtain ⟨hnames, hw⟩ := h _ (mem_all _)
    rw [all, List.forall_mem_cons] at h
    obtain ⟨s, hs⟩ := Declaration.source_of_writable (hw start.value (by simp [exprs]))
    obtain ⟨t, ht⟩ := hw condition (by simp [exprs])
    obtain ⟨u, hu⟩ := Progression.source_of_writable (hw step.expr (by simp [exprs]))
    have hstart := Declaration.source_reads (hnames start.name (by simp [names])) hs
    have hstep := Progression.source_reads (fun n hn => hnames n (by simp [names, hn])) hu
    have hheader := for_reads hstart (Expr.source_reads ht) hstep
    rw [write, hs, Write.text_bind_ok, ht, Write.text_bind_ok, hu, Write.text_bind_ok]
    simpa [terminals] using hheader.writes_body (body_writes body h.2)

theorem body_writes : ∀ b : List Instruction,
    (∀ j ∈ allIn b, j.Named ∧ ∀ e ∈ j.exprs, e.Writable) → Writes (writeBody b) (bodyTerminals b)
  | [], _ => Writes.pure
  | i :: is, h => by
    rw [allIn, List.forall_mem_append] at h
    rw [writeBody, bodyTerminals]
    exact (writes i h.1).seq (body_writes is h.2)

end

end Instruction

/-! ### Blocks and programs -/

/-- **What is written of a block** is read as its terminals. -/
theorem Block.writes {b : Block} (hn : ∀ n ∈ b.names, Lone n)
    (hi : ∀ i ∈ b.instructions, i.Named ∧ ∀ e ∈ i.exprs, e.Writable) :
    Writes b.write b.terminals := by
  cases b with
  | data name fields =>
    rw [names, List.forall_mem_cons] at hn
    have htyped := forall_mem_pairs.mp hn.2
    have hmembers : ∀ f ∈ fields, Reads .canonical f.source.toList f.terminals :=
      fun f hf => typed_reads (htyped f hf).1 (htyped f hf).2
    have hheader : Reads .canonical (s!"data {name}").toList
        [.mark (.keyword .data), .symbol name] :=
      word_reads rfl (lone_iff.mp hn.1)
    refine Writes.enclosed hheader ?_ (Writes.memberLines fields hmembers).1
    -- without fields there are no lines, and the braces are written at once
    intro he
    rw [List.isEmpty_iff, List.map_eq_nil_iff] at he
    rw [he]
    rfl
  | group name parameters instances =>
    rw [names, List.forall_mem_append, List.forall_mem_cons] at hn
    obtain ⟨⟨hname, hpairs⟩, hinstances⟩ := hn
    have htyped := forall_mem_pairs.mp hpairs
    have hparameters : ∀ p ∈ parameters, Reads .canonical p.source.toList p.terminals :=
      fun p hp => typed_reads (htyped p hp).1 (htyped p hp).2
    have hmembers : ∀ d ∈ instances, Reads .canonical d.source.toList d.terminals := by
      intro d hd
      have hown := List.forall_mem_cons.mp (List.forall_mem_flatMap.mp hinstances d hd)
      exact DataInstance.source_reads hown.1 (forall_mem_pairs.mp hown.2)
    have hheader := group_reads hname (intercalate_reads _ hparameters)
    have hempty : (instances.map DataInstance.source).isEmpty = true →
        instances.flatMap DataInstance.terminals = [] := by
      intro he
      rw [List.isEmpty_iff, List.map_eq_nil_iff] at he
      rw [he]
      rfl
    have henclosed := Writes.enclosed hheader hempty (Writes.memberLines instances hmembers).2
    simpa [terminals, write, Write.members] using henclosed
  | action name body =>
    have hname : Reads .canonical name.toList [.symbol name] :=
      lone_iff.mp (hn name (by simp [names]))
    exact (word_reads (k := .doWord) rfl hname).writes_body (Instruction.body_writes body hi)
  | run actions body =>
    have hheader := run_reads (names_read hn)
    exact hheader.writes_body (Instruction.body_writes body hi)

namespace Program

/-- Whatever expression stands behind the first block of a program that was written has a source
text. -/
theorem writable_of_writeLater {bs : List Block} {q q' : Page} (h : writeLater bs q = .ok () q') :
    ∀ i ∈ bs.flatMap Block.instructions, ∀ e ∈ i.exprs, e.Writable := by
  induction bs generalizing q with
  | nil => simp
  | cons b bs ih =>
    unfold writeLater at h
    obtain ⟨_, q₁, -, h₁⟩ := Write.bind_eq_ok.mp h
    obtain ⟨_, q₂, h₂, h₃⟩ := Write.bind_eq_ok.mp h₁
    have hfirst := Block.writable_of_write h₂
    have hothers := ih h₃
    rw [List.flatMap_cons, List.forall_mem_append]
    exact ⟨hfirst, hothers⟩

/-- Whatever expression stands in a program that was written has a source text. -/
theorem writable_of_source {p : Program} {t : String} (h : p.source = .ok t) :
    ∀ i ∈ p.instructions, ∀ e ∈ i.exprs, e.Writable := by
  obtain ⟨bs⟩ := p
  unfold source at h
  split at h
  · next hw =>
    cases bs with
    | nil => simp [instructions]
    | cons b bs =>
      obtain ⟨_, q, h₁, h₂⟩ := Write.bind_eq_ok.mp hw
      have hfirst := Block.writable_of_write h₁
      have hothers := writable_of_writeLater h₂
      rw [instructions, List.flatMap_cons, List.forall_mem_append]
      exact ⟨hfirst, hothers⟩
  · cases h

/-- Are the names in the program lone symbols? -/
def Named (p : Program) : Prop := ∀ n ∈ p.names, Lone n

/-- What is written behind the first block is read as the terminals of the other blocks. -/
theorem later_writes {bs : List Block} (h : ∀ b ∈ bs, Writes b.write b.terminals) :
    Writes (writeLater bs) (bs.flatMap Block.terminals) := by
  induction bs with
  | nil => exact Writes.pure
  | cons b bs ih =>
    rw [List.forall_mem_cons] at h
    have hothers := ih h.2
    simpa [writeLater] using Writes.blank.seq (h.1.seq hothers)

/-- **What is written of a program** is read as its terminals. -/
theorem writes {p : Program} (hn : p.Named)
    (hw : ∀ i ∈ p.instructions, ∀ e ∈ i.exprs, e.Writable) : Writes p.write p.terminals := by
  have hblock : ∀ b ∈ p.blocks, Writes b.write b.terminals := by
    intro b hb
    refine Block.writes (fun n hmem => hn n ?_) fun i hi => ⟨fun n hmem => hn n ?_, hw i ?_⟩
    · exact List.mem_append_left _ (List.mem_flatMap.mpr ⟨b, hb, hmem⟩)
    · refine List.mem_append_right _ (List.mem_flatMap.mpr ⟨i, ?_, hmem⟩)
      exact List.mem_flatMap.mpr ⟨b, hb, hi⟩
    · exact List.mem_flatMap.mpr ⟨b, hb, hi⟩
  obtain ⟨bs⟩ := p
  cases bs with
  | nil => exact Writes.pure
  | cons b bs =>
    rw [List.forall_mem_cons] at hblock
    exact hblock.1.seq (later_writes hblock.2)

/-- **A program that can be written is written**, and its source text is read as its terminals. -/
theorem source_reads {p : Program} (hn : p.Named)
    (hw : ∀ i ∈ p.instructions, ∀ e ∈ i.exprs, e.Writable) :
    ∃ t, p.source = .ok t ∧ Reads .canonical t.toList p.terminals := by
  obtain ⟨ls, hls, hread⟩ := writes hn hw {}
  refine ⟨Page.text { lines := ls }, ?_, ?_⟩
  · unfold source
    rw [hls]
    rfl
  · have hall := hread [] [] .nil
    rw [Page.toList_text]
    simpa using hall

/-- A text that is read as terminals denotes the program they derive. -/
theorem ofSource_iff {t : String} {ws : List Terminal} (h : Reads .canonical t.toList ws)
    (limit : Int) (p : Program) :
    ofSource .canonical limit t = .ok p ↔ Derives ws p ∧ p.depth ≤ limit.toNat := by
  obtain ⟨ts, hts, rfl⟩ := h.tokensFrom .start
  have he : EndFree ts := (tokenRun_of_tokensFrom hts).endFree
  rw [ofSource_of_tokenize hts, ofTokens_eq_ok _ he]

/-- **Writing is faithful**, also to trees that were never read: if the names in a program are lone
symbols, every loop over collections has a name, no step of a loop sets a name with a point, and
the bodies nest as deep as may be read, then a source text of the program is read back as it. -/
theorem ofSource_source {p : Program} {t : String} (hnames : ∀ n ∈ p.names, Lone n)
    (hforeach : ∀ i ∈ p.instructions, i.HasNames)
    (hsteps : ∀ i ∈ p.instructions, i.Undotted) (hdepth : p.depth ≤ 200)
    (ht : p.source = .ok t) : ofSource .canonical defaultLimit t = .ok p := by
  have hw := writable_of_source ht
  obtain ⟨t', ht', hread⟩ := source_reads hnames hw
  rw [ht] at ht'
  cases ht'
  have hderives : Derives p.terminals p := by
    refine terminals_derive fun i hi => ⟨⟨hw i hi, ?_⟩, ?_⟩
    · exact hforeach i hi
    · exact hsteps i hi
  exact (ofSource_iff hread defaultLimit p).mpr ⟨hderives, hdepth⟩

/-- An action with a counting loop in a loop over a collection. -/
def nestedLoops : Program :=
  ⟨[.action "f" [.foreach ["x"] [.value "a.b"]
    [.loop ⟨"i", .value "0"⟩ (.value "x") (.assign ⟨"i", .binary .add (.value "i") (.value "1")⟩)
      []]]]⟩

/-- The loops are written as one would write them, and read back. -/
theorem ofSource_source_nestedLoops :
    ofSource .canonical defaultLimit
      "do f \x7b\n    foreach x in a.b \x7b\n        for let i = 0; x; i = i + 1 \x7b\x7d\n    \x7d\n\x7d\n" =
        .ok nestedLoops :=
  ofSource_source (by decide +kernel) (by decide +kernel) (by decide +kernel) (by decide +kernel)
    (by decide +kernel)

end Program

end BlockLang
