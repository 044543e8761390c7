import BlockLang.Json.Reader
import BlockLang.Json.Writer
import BlockLang.Proofs.Aliases.Admits

/-!
# Reading what was written as JSON

A value made of texts, arrays and objects is read back from its indented text, and that text is
ASCII. Characters come first: each is read back from the way it stands in a string, whatever
follows, be it itself, a letter behind a backslash, a unit or a pair of units. Values follow by
induction, with fuel for the length of their text; of what stands between them only spaces are
skipped.
-/

namespace BlockLang.Json

open BlockLang.Text

/-! ## Units -/

theorem hexValue?_digitChar : ∀ d < 16, hexValue? (Nat.digitChar d) = some d := by decide

theorem hex_four (u : Nat) :
    hex 4 u = [Nat.digitChar (u / 4096 % 16), Nat.digitChar (u / 256 % 16),
      Nat.digitChar (u / 16 % 16), Nat.digitChar (u % 16)] := by
  simp [hex, Nat.div_div_eq_div_mul]

/-- The four digits of a unit are read as the unit. -/
theorem unit?_digits {u : Nat} (hu : u < 0x10000) :
    unit? (Nat.digitChar (u / 4096 % 16)) (Nat.digitChar (u / 256 % 16))
      (Nat.digitChar (u / 16 % 16)) (Nat.digitChar (u % 16)) = some u := by
  have hdigit (n : Nat) : hexValue? (Nat.digitChar (n % 16)) = some (n % 16) :=
    hexValue?_digitChar _ (Nat.mod_lt _ (by decide))
  have hu' : ((u / 4096 % 16 * 16 + u / 256 % 16) * 16 + u / 16 % 16) * 16 + u % 16 = u := by omega
  simp [unit?, hdigit, hu']

/-- The escape of a unit is read as the unit. -/
theorem stringTail_unitEscape {u : Nat} (hu : u < 0x10000) (rest : List Char) :
    stringTail (unitEscape u ++ rest) =
      (stringTail rest).map fun s => (withUnit u s.1, s.2) := by
  rw [unitEscape, hex_four]
  simp only [List.cons_append, List.nil_append]
  rw [stringTail, unit?_digits hu]
  cases stringTail rest <;> rfl

/-- Only the first half of a pair joins what follows. -/
theorem withUnit_of_not_first {u : Nat} (hu : ¬ (0xD800 ≤ u ∧ u ≤ 0xDBFF)) (s : List Point) :
    withUnit u s = unitPoint u :: s := by
  unfold withUnit
  split
  · rw [if_neg fun h => hu ⟨h.1, h.2.1⟩]
  · rfl

/-! ## Characters -/

/-- An escape by a letter is read as what the letter stands for. -/
theorem stringTail_letter {c d : Char} (hc : letterEscape? c = some d) (rest : List Char) :
    stringTail ('\\' :: c :: rest) = (stringTail rest).map fun s => (.char d :: s.1, s.2) := by
  have hu : c ≠ 'u' := by
    rintro rfl
    have hnone : letterEscape? 'u' = none := by decide
    rw [hnone] at hc
    cases hc
  rw [stringTail]
  · rw [hc]
    cases stringTail rest <;> rfl
  · exact fun _ _ _ _ _ h => absurd h hu

/-- A character that needs no escape is read as itself. -/
theorem stringTail_plain {c : Char} (hq : c ≠ '\x22') (hb : c ≠ '\\') (hc : 0x20 ≤ c.toNat)
    (rest : List Char) :
    stringTail (c :: rest) = (stringTail rest).map fun s => (.char c :: s.1, s.2) := by
  rw [stringTail]
  · rw [if_neg (by simpa using hq), if_neg (by simp [hb]; omega)]
    cases stringTail rest <;> rfl
  · exact fun _ _ _ _ _ h => absurd h hb
  · exact fun _ _ h => absurd h hb

/-- A character is no half of a pair. -/
theorem char_range (c : Char) : c.toNat < 0xD800 ∨ 0xDFFF < c.toNat ∧ c.toNat < 0x110000 := c.valid

theorem unitPoint_toNat (c : Char) : unitPoint c.toNat = .char c := by
  have hrange := char_range c
  rw [unitPoint, if_neg (by omega), Char.ofNat_toNat]

/-- The point of a second half. -/
theorem unitPoint_second {m : Nat} (hm : m < 0x400) :
    unitPoint (0xDC00 + m) = .half (.ofNat 0x800 (0x400 + m)) := by
  rw [unitPoint, if_pos (by omega), Nat.add_comm, Nat.add_sub_assoc (by decide), Nat.add_comm]

/-- A first half joins the second half behind it. -/
theorem withUnit_second {n m : Nat} (hn : n < 0x400) (hm : m < 0x400) (s : List Point) :
    withUnit (0xD800 + n) (.half (.ofNat 0x800 (0x400 + m)) :: s) =
      .char (Char.ofNat (0x10000 + n * 0x400 + m)) :: s := by
  have hunit : Point.unit (.ofNat 0x800 (0x400 + m)) = 0xDC00 + m := by
    simp only [Point.unit, Fin.val_ofNat]
    omega
  rw [withUnit, hunit, if_pos (by omega), Nat.add_sub_cancel_left, Nat.add_sub_cancel_left]

/-- The escapes of two halves are read as the character of the pair. -/
theorem stringTail_pair {n m : Nat} (hn : n < 0x400) (hm : m < 0x400) (rest : List Char) :
    stringTail (unitEscape (0xD800 + n) ++ (unitEscape (0xDC00 + m) ++ rest)) =
      (stringTail rest).map fun s =>
        (.char (Char.ofNat (0x10000 + n * 0x400 + m)) :: s.1, s.2) := by
  have hpair (s : List Point) : withUnit (0xD800 + n) (withUnit (0xDC00 + m) s) =
      .char (Char.ofNat (0x10000 + n * 0x400 + m)) :: s := by
    rw [withUnit_of_not_first (u := 0xDC00 + m) (by omega), unitPoint_second hm,
      withUnit_second hn hm]
  rw [stringTail_unitEscape (by omega), stringTail_unitEscape (by omega), Option.map_map]
  simp only [Function.comp_def, hpair]

/-- **A character is read back** from the way it stands in a string. -/
theorem stringTail_escape (c : Char) (rest : List Char) :
    stringTail (escape c ++ rest) = (stringTail rest).map fun s => (.char c :: s.1, s.2) := by
  have hrange := char_range c
  unfold escape
  split_ifs with hmark hvisible hn hr ht hb hf hunit
  · refine stringTail_letter ?_ rest
    have hc : (c == '\x22' || c == '\\' || c == '/') = true := by rw [hmark, Bool.true_or]
    rw [letterEscape?, if_pos hc]
  · obtain ⟨hq, hs⟩ : c ≠ '\x22' ∧ c ≠ '\\' := by simpa using hmark
    exact stringTail_plain hq hs (Char.le_def.mp hvisible.1) rest
  · obtain rfl := eq_of_beq hn
    exact stringTail_letter (by decide) rest
  · obtain rfl := eq_of_beq hr
    exact stringTail_letter (by decide) rest
  · obtain rfl := eq_of_beq ht
    exact stringTail_letter (by decide) rest
  · obtain rfl := eq_of_beq hb
    exact stringTail_letter (by decide) rest
  · obtain rfl := eq_of_beq hf
    exact stringTail_letter (by decide) rest
  · rw [stringTail_unitEscape hunit]
    simp only [withUnit_of_not_first (u := c.toNat) (by omega), unitPoint_toNat]
  · have hfirst : (c.toNat - 0x10000) / 0x400 < 0x400 := by omega
    have hsecond : (c.toNat - 0x10000) % 0x400 < 0x400 := Nat.mod_lt _ (by decide)
    have hc : 0x10000 + (c.toNat - 0x10000) / 0x400 * 0x400 + (c.toNat - 0x10000) % 0x400 =
        c.toNat := by omega
    rw [List.append_assoc, stringTail_pair hfirst hsecond, hc, Char.ofNat_toNat]

/-- A character of two units. -/
example : escape '😀' = "\\ud83d\\ude00".toList := by decide

/-! ## Texts -/

theorem writeText_append (t : LooseText) (rest : List Char) :
    writeText t ++ rest = '\x22' :: (t.points.flatMap escapePoint ++ '\x22' :: rest) := by
  simp [writeText]

/-- The points of a text are read back up to the closing quote. -/
theorem stringTail_text {t : LooseText} (ht : ∃ s, t = .ofString s) (rest : List Char) :
    stringTail (t.points.flatMap escapePoint ++ '\x22' :: rest) = some (t.points, rest) := by
  obtain ⟨s, rfl⟩ := ht
  simp only [LooseText.ofString]
  induction s.toList with
  | nil => simp [stringTail]
  | cons c cs ih =>
    rw [List.map_cons, List.flatMap_cons, List.append_assoc, escapePoint, stringTail_escape, ih]
    rfl

/-! ## Values -/

/-- **A value made of texts**: texts, arrays, and objects whose names are texts and differ. -/
inductive Textual : Json → Prop
  | text (s : String) : Textual (.text (.ofString s))
  | array {items : List Json} : (∀ item ∈ items, Textual item) → Textual (.array items)
  | object {members : List (LooseText × Json)} : (members.map (·.1)).Nodup →
      (∀ m ∈ members, ∃ k, m.1 = .ofString k) → (∀ m ∈ members, Textual m.2) →
      Textual (.object members)

/-- The text of a value begins with a quote or a bracket. -/
theorem Textual.begins {j : Json} (h : j.Textual) (level : Nat) (rest : List Char) :
    ∃ c r, j.pretty level ++ rest = c :: r ∧ (c = '\x22' ∨ c = '[' ∨ c = '\x7b') := by
  cases h with
  | text s => exact ⟨_, _, rfl, .inl rfl⟩
  | @array items =>
    cases items with
    | nil => exact ⟨_, _, rfl, .inr (.inl rfl)⟩
    | cons item items => exact ⟨_, _, rfl, .inr (.inl rfl)⟩
  | @object members =>
    cases members with
    | nil => exact ⟨_, _, rfl, .inr (.inr rfl)⟩
    | cons m members => exact ⟨_, _, rfl, .inr (.inr rfl)⟩

/-! ## Spaces -/

/-- No space stands in front of a value. -/
theorem skip_pretty {j : Json} (h : j.Textual) (level : Nat) (rest : List Char) :
    skip (j.pretty level ++ rest) = j.pretty level ++ rest := by
  obtain ⟨c, r, hcs, hc⟩ := h.begins level rest
  rw [hcs, skip, List.dropWhile_cons_of_neg]
  rcases hc with rfl | rfl | rfl <;> decide

/-- Line ends and indentation are skipped. -/
theorem skip_newline (level : Nat) (rest : List Char) :
    skip (newline level ++ rest) = skip rest := by
  rw [newline, skip, List.cons_append, List.dropWhile_cons_of_pos (by decide), skip,
    List.dropWhile_append_of_pos]
  simp [isSpace]

/-- A space is skipped. -/
theorem skip_space (rest : List Char) : skip (' ' :: rest) = skip rest := rfl

/-- A character that is no space is not skipped. -/
theorem skip_cons {c : Char} (hc : isSpace c = false) (rest : List Char) :
    skip (c :: rest) = c :: rest := by
  rw [skip, List.dropWhile_cons_of_neg (by simp [hc])]

/-! ## Items, members and values -/

/-- Is the value read back from its text, whatever follows, with fuel for the length of its text? -/
def ReadsBack (j : Json) : Prop :=
  ∀ level fuel rest, (j.pretty level).length ≤ fuel →
    value fuel (j.pretty level ++ rest) = .ok (j, rest)

/-- The items of an array are read back, if each of them is. -/
theorem items_pretty (level outer : Nat) {item : Json} {more : List Json}
    (h : ∀ j ∈ item :: more, j.Textual ∧ j.ReadsBack) (fuel : Nat) (rest : List Char)
    (hfuel : (item.pretty level).length + (prettyItems level more).length < fuel) :
    items fuel (item.pretty level ++ (prettyItems level more ++ (newline outer ++ ']' :: rest))) =
      .ok (item :: more, rest) := by
  induction more generalizing item fuel with
  | nil =>
    obtain ⟨fuel, rfl⟩ := Nat.exists_eq_succ_of_ne_zero (Nat.ne_zero_of_lt hfuel)
    rw [items, (h item (by simp)).2 level fuel _ (by omega)]
    simp only [Bind.bind, Except.bind, prettyItems, List.nil_append, skip_newline,
      skip_cons (c := ']') (by decide)]
    rfl
  | cons next more ih =>
    obtain ⟨fuel, rfl⟩ := Nat.exists_eq_succ_of_ne_zero (Nat.ne_zero_of_lt hfuel)
    rw [List.forall_mem_cons] at h
    simp only [prettyItems, List.length_cons, List.length_append] at hfuel
    rw [items, h.1.2 level fuel _ (by omega)]
    simp only [Bind.bind, Except.bind, prettyItems, List.cons_append, List.append_assoc,
      skip_cons (c := ',') (by decide), skip_newline, skip_pretty (h.2 next (by simp)).1,
      ih h.2 fuel (by omega)]
    rfl

/-- The members of an object are read back, if their names are texts and the value of each of them
is. -/
theorem members_pretty (level outer : Nat) {m : LooseText × Json} {more : List (LooseText × Json)}
    (hnames : ∀ m' ∈ m :: more, ∃ k, m'.1 = .ofString k)
    (h : ∀ m' ∈ m :: more, m'.2.Textual ∧ m'.2.ReadsBack) (fuel : Nat) (rest : List Char)
    (hfuel : (m.2.pretty level).length + (prettyMembers level more).length < fuel) :
    members fuel (writeText m.1 ++ ':' :: ' ' :: (m.2.pretty level ++
        (prettyMembers level more ++ (newline outer ++ '\x7d' :: rest)))) =
      .ok (m :: more, rest) := by
  induction more generalizing m fuel with
  | nil =>
    obtain ⟨fuel, rfl⟩ := Nat.exists_eq_succ_of_ne_zero (Nat.ne_zero_of_lt hfuel)
    obtain ⟨hv, hread⟩ := h m List.mem_cons_self
    rw [writeText_append, members, stringTail_text (hnames m List.mem_cons_self)]
    simp only [need, Bind.bind, Except.bind, skip_cons (c := ':') (by decide), skip_space,
      skip_pretty hv, hread level fuel _ (by omega), prettyMembers, List.nil_append, skip_newline,
      skip_cons (c := '\x7d') (by decide)]
    rfl
  | cons next more ih =>
    obtain ⟨fuel, rfl⟩ := Nat.exists_eq_succ_of_ne_zero (Nat.ne_zero_of_lt hfuel)
    rw [List.forall_mem_cons] at h hnames
    obtain ⟨⟨hv, hread⟩, hmore⟩ := h
    simp only [prettyMembers, List.length_cons, List.length_append] at hfuel
    have hnext := ih hnames.2 hmore fuel (by omega)
    rw [writeText_append] at hnext ⊢
    rw [members, stringTail_text hnames.1]
    simp only [need, Bind.bind, Except.bind, skip_cons (c := ':') (by decide), skip_space,
      skip_pretty hv, hread level fuel _ (by omega), prettyMembers, List.cons_append,
      List.append_assoc, skip_cons (c := ',') (by decide), skip_newline, writeText_append,
      skip_cons (c := '\x22') (by decide), hnext]
    rfl

/-- A text that is written takes up fuel. -/
theorem Textual.exists_fuel {j : Json} (h : j.Textual) {level fuel : Nat}
    (hfuel : (j.pretty level).length ≤ fuel) : ∃ n, fuel = n + 1 := by
  obtain ⟨c, r, hcs, -⟩ := h.begins level []
  rw [List.append_nil] at hcs
  rw [hcs, List.length_cons] at hfuel
  exact ⟨fuel - 1, by omega⟩

/-- An array is read back, if its items are. -/
theorem readsBack_array {js : List Json} (h : ∀ j ∈ js, j.Textual ∧ j.ReadsBack) :
    ReadsBack (.array js) := by
  intro level fuel rest hfuel
  obtain ⟨fuel, rfl⟩ := (Textual.array fun j hj => (h j hj).1).exists_fuel hfuel
  cases js with
  | nil => rfl
  | cons j more =>
    have hj : j.Textual := (h j List.mem_cons_self).1
    simp only [pretty, List.length_cons, List.length_append] at hfuel
    have hread := items_pretty (level + 1) level h fuel rest (by omega)
    simp only [pretty, List.cons_append, List.append_assoc, List.nil_append]
    rw [value, skip_newline, skip_pretty hj]
    split
    · next hclose =>
      -- the bracket does not close at once, since an item begins otherwise
      obtain ⟨c, r, hcs, hc⟩ := hj.begins (level + 1)
        (prettyItems (level + 1) more ++ (newline level ++ ']' :: rest))
      rw [hcs] at hclose
      injection hclose with hclose
      subst hclose
      simp at hc
    · rw [hread]
      rfl

/-- An object is read back, if its names are texts and differ, and its values are read back. -/
theorem readsBack_object {ms : List (LooseText × Json)} (hkeys : (ms.map (·.1)).Nodup)
    (hnames : ∀ m ∈ ms, ∃ k, m.1 = .ofString k) (h : ∀ m ∈ ms, m.2.Textual ∧ m.2.ReadsBack) :
    ReadsBack (.object ms) := by
  intro level fuel rest hfuel
  obtain ⟨fuel, rfl⟩ :=
    (Textual.object hkeys hnames fun m hm => (h m hm).1).exists_fuel hfuel
  cases ms with
  | nil => rfl
  | cons m more =>
    simp only [pretty, List.length_cons, List.length_append] at hfuel
    have hread := members_pretty (level + 1) level hnames h fuel rest (by omega)
    simp only [pretty, List.cons_append, List.append_assoc, List.nil_append]
    rw [writeText_append] at hread ⊢
    rw [value, skip_newline, skip_cons (by decide)]
    split
    · next hclose =>
      injection hclose with hclose
      exact absurd hclose (by decide)
    · simp only [hread, Bind.bind, Except.bind, Table.ofEntries_of_nodup hkeys]
      rfl

/-- **A value made of texts is read back** from its text, whatever follows. -/
theorem Textual.readsBack {j : Json} (h : j.Textual) : j.ReadsBack := by
  induction h with
  | text s =>
    intro level fuel rest hfuel
    obtain ⟨fuel, rfl⟩ := (Textual.text s).exists_fuel hfuel
    rw [pretty, writeText_append, value, stringTail_text ⟨s, rfl⟩]
    rfl
  | array hitems ih => exact readsBack_array fun j hj => ⟨hitems j hj, ih j hj⟩
  | object hkeys hnames hvalues ih =>
    exact readsBack_object hkeys hnames fun m hm => ⟨hvalues m hm, ih m hm⟩

/-- **The whole text of a value made of texts denotes it.** -/
theorem Textual.read_pretty {j : Json} (h : j.Textual) : read (j.pretty 0) = .ok j := by
  have hread := h.readsBack 0 ((j.pretty 0).length + 1) [] (Nat.le_succ _)
  have hskip := skip_pretty h 0 []
  rw [List.append_nil] at hread hskip
  rw [read, hskip, hread]
  rfl

/-! ## ASCII -/

/-- Does a text consist of ASCII characters? -/
def Ascii (cs : List Char) : Prop := ∀ c ∈ cs, c.toNat < 0x80

@[simp]
theorem ascii_nil : Ascii [] := fun _ hc => absurd hc List.not_mem_nil

@[simp]
theorem ascii_cons {c : Char} {cs : List Char} : Ascii (c :: cs) ↔ c.toNat < 0x80 ∧ Ascii cs :=
  List.forall_mem_cons

@[simp]
theorem ascii_append {cs ds : List Char} : Ascii (cs ++ ds) ↔ Ascii cs ∧ Ascii ds :=
  List.forall_mem_append

theorem toNat_digitChar : ∀ d < 16, (Nat.digitChar d).toNat < 0x80 := by decide

theorem ascii_unitEscape (u : Nat) : Ascii (unitEscape u) := by
  have hdigit (n : Nat) : (Nat.digitChar (n % 16)).toNat < 0x80 :=
    toNat_digitChar _ (Nat.mod_lt _ (by decide))
  rw [unitEscape, hex_four]
  simp [hdigit]

theorem ascii_escape (c : Char) : Ascii (escape c) := by
  unfold escape
  split_ifs with hmark hvisible hn hr ht hb hf hunit
  · rcases Bool.or_eq_true _ _ ▸ hmark with hc | hc
    · obtain rfl := eq_of_beq hc
      simp
    · obtain rfl := eq_of_beq hc
      simp
  · rintro d hd
    obtain rfl := List.mem_singleton.mp hd
    exact Nat.lt_of_le_of_lt (Char.le_def.mp hvisible.2) (by decide)
  · simp
  · simp
  · simp
  · simp
  · simp
  · exact ascii_unitEscape _
  · exact ascii_append.mpr ⟨ascii_unitEscape _, ascii_unitEscape _⟩

theorem ascii_writeText (t : LooseText) : Ascii (writeText t) := by
  have hpoints : Ascii (t.points.flatMap escapePoint) := by
    intro d hd
    obtain ⟨p, -, hmem⟩ := List.mem_flatMap.mp hd
    cases p with
    | char c => exact ascii_escape c d hmem
    | half u => exact ascii_unitEscape _ d hmem
  simp [writeText, hpoints]

theorem ascii_newline (level : Nat) : Ascii (newline level) := by
  have hspaces : Ascii (List.replicate (2 * level) ' ') := by
    intro d hd
    obtain rfl := List.eq_of_mem_replicate hd
    decide
  simp [newline, hspaces]

theorem ascii_prettyItems {level : Nat} {items : List Json}
    (h : ∀ item ∈ items, Ascii (item.pretty level)) : Ascii (prettyItems level items) := by
  induction items with
  | nil => exact ascii_nil
  | cons item items ih =>
    rw [List.forall_mem_cons] at h
    simp [prettyItems, ascii_newline, h.1, ih h.2]

theorem ascii_prettyMembers {level : Nat} {members : List (LooseText × Json)}
    (h : ∀ m ∈ members, Ascii (m.2.pretty level)) : Ascii (prettyMembers level members) := by
  induction members with
  | nil => exact ascii_nil
  | cons m members ih =>
    rw [List.forall_mem_cons] at h
    simp [prettyMembers, ascii_newline, ascii_writeText, h.1, ih h.2]

/-- **The text of a value made of texts** consists of ASCII characters. -/
theorem Textual.ascii {j : Json} (h : j.Textual) (level : Nat) : Ascii (j.pretty level) := by
  induction h generalizing level with
  | text s => exact ascii_writeText _
  | @array items _ ih =>
    cases items with
    | nil => simp [pretty]
    | cons item more =>
      obtain ⟨hitem, hmore⟩ := List.forall_mem_cons.mp fun j hj => ih j hj (level + 1)
      simp [pretty, ascii_newline, hitem, ascii_prettyItems hmore]
  | @object members _ _ _ ih =>
    cases members with
    | nil => simp [pretty]
    | cons m more =>
      obtain ⟨hvalue, hmore⟩ := List.forall_mem_cons.mp fun j hj => ih j hj (level + 1)
      simp [pretty, ascii_newline, ascii_writeText, hvalue, ascii_prettyMembers hmore]

end BlockLang.Json
