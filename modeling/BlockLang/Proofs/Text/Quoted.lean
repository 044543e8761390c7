import BlockLang.Text.Quoted
import Mathlib

/-!
# Reading quoted texts

A quoted text holds no line feed, and it tells by itself where it ends: no escaped character starts
with the mark around the text, and each one tells where it ends in turn. So of two quoted texts with
anything behind them, the texts and what is behind them can be told apart.
-/

namespace BlockLang.Text

variable {α : Type}

/-- **A delimiting form** tells what it is the form of and where it ends, whatever follows. -/
def Delimits (f : α → List Char) : Prop :=
  ∀ ⦃a b : α⦄ ⦃r s : List Char⦄, f a ++ r = f b ++ s → a = b ∧ r = s

/-- The same characters in front change nothing. -/
theorem Delimits.behind {f : α → List Char} (h : Delimits f) (cs : List Char) :
    Delimits fun a => cs ++ f a := by
  intro a b r s heq
  simp only [List.append_assoc] at heq
  exact h (List.append_cancel_left heq)

/-! ## Digits -/

/-- The value of a hexadecimal digit in lower case. -/
def digitValue (c : Char) : Nat := if c.toNat < 0x60 then c.toNat - 0x30 else c.toNat - 0x57

/-- The value of hexadecimal digits, the highest first. -/
def hexValue (cs : List Char) : Nat := cs.foldl (fun n c => 16 * n + digitValue c) 0

theorem digitValue_digitChar : ∀ d < 16, digitValue (Nat.digitChar d) = d := by decide

theorem length_hex (width n : Nat) : (hex width n).length = width := by
  induction width generalizing n with
  | zero => rfl
  | succ width ih => rw [hex, List.length_append, ih, List.length_singleton]

theorem hexValue_hex (width n : Nat) : hexValue (hex width n) = n % 16 ^ width := by
  induction width generalizing n with
  | zero => rw [pow_zero, Nat.mod_one]; rfl
  | succ width ih =>
    have hlast := digitValue_digitChar (n % 16) (Nat.mod_lt _ (by decide))
    rw [hex, hexValue, List.foldl_append, List.foldl_cons, List.foldl_nil, hlast,
      ← hexValue, ih, pow_succ', Nat.mod_mul, Nat.add_comm]

theorem not_mem_hex {c : Char} (hc : ∀ d < 16, Nat.digitChar d ≠ c) (width n : Nat) :
    c ∉ hex width n := by
  induction width generalizing n with
  | zero => exact List.not_mem_nil
  | succ width ih =>
    rw [hex, List.mem_append, List.mem_singleton, not_or]
    exact ⟨ih _, (hc _ (Nat.mod_lt _ (by decide))).symm⟩

namespace Quoted

/-! ## Characters -/

/-- Reads a character from the way it stands in a quoted text. -/
def unescape : List Char → Option (Char × List Char)
  | [] => none
  | '\\' :: 'n' :: cs => some ('\n', cs)
  | '\\' :: 'r' :: cs => some ('\r', cs)
  | '\\' :: 't' :: cs => some ('\t', cs)
  | '\\' :: 'x' :: cs => some (Char.ofNat (hexValue (cs.take 2)), cs.drop 2)
  | '\\' :: 'u' :: cs => some (Char.ofNat (hexValue (cs.take 4)), cs.drop 4)
  | '\\' :: 'U' :: cs => some (Char.ofNat (hexValue (cs.take 8)), cs.drop 8)
  | '\\' :: c :: cs => some (c, cs)
  | c :: cs => some (c, cs)

/-- The marks that can stand around a text. -/
def IsMark (q : Char) : Prop := q = '\x27' ∨ q = '\x22'

theorem isMark_mark (cs : List Char) : IsMark (mark cs) := by
  unfold mark
  split
  · exact .inr rfl
  · exact .inl rfl

/-- A code of enough digits is read as the character. -/
theorem code_eq (width : Nat) {c : Char} (h : c.toNat < 16 ^ width) (rest : List Char) :
    Char.ofNat (hexValue ((hex width c.toNat ++ rest).take width)) = c ∧
      (hex width c.toNat ++ rest).drop width = rest := by
  have hlen := length_hex width c.toNat
  rw [List.take_left' hlen, List.drop_left' hlen, hexValue_hex, Nat.mod_eq_of_lt h,
    Char.ofNat_toNat]
  exact ⟨rfl, rfl⟩

variable {q : Char}

/-- **An escaped character is read back**, whatever follows. -/
theorem unescape_escape (hq : IsMark q) (c : Char) (rest : List Char) :
    unescape (escape q c ++ rest) = some (c, rest) := by
  unfold escape
  split_ifs with hself hn hr ht hp hx hu
  · -- the mark and the backslash are none of the letters of codes
    rcases hq with rfl | rfl <;> simp only [Bool.or_eq_true, beq_iff_eq] at hself <;>
      rcases hself with rfl | rfl <;> rfl
  · rw [eq_of_beq hn]
    rfl
  · rw [eq_of_beq hr]
    rfl
  · rw [eq_of_beq ht]
    rfl
  · have hc : c ≠ '\\' := by
      rintro rfl
      simp at hself
    simp [unescape, hc]
  · obtain ⟨hc, hrest⟩ := code_eq 2 (by simpa using hx) rest
    simp only [List.cons_append, unescape, hc, hrest]
  · obtain ⟨hc, hrest⟩ := code_eq 4 (by simpa using hu) rest
    simp only [List.cons_append, unescape, hc, hrest]
  · have hlt : c.toNat < 16 ^ 8 := by
      have hvalid : c.toNat < 0xD800 ∨ 0xDFFF < c.toNat ∧ c.toNat < 0x110000 := c.valid
      omega
    obtain ⟨hc, hrest⟩ := code_eq 8 hlt rest
    simp only [List.cons_append, unescape, hc, hrest]

/-- An escaped character never starts with the mark. -/
theorem escape_append_ne (hq : IsMark q) (c : Char) (us vs : List Char) :
    escape q c ++ us ≠ q :: vs := by
  have hback : '\\' ≠ q := by rcases hq with rfl | rfl <;> decide
  unfold escape
  split_ifs with hself
  all_goals simp_all

/-- Nor does it hold a line feed. -/
theorem newline_not_mem_escape (hq : IsMark q) (c : Char) : '\n' ∉ escape q c := by
  have hhex := not_mem_hex (c := '\n') (by decide)
  unfold escape
  split_ifs with hself hn hr ht hp
  · have hc : '\n' ≠ c := by
      rintro rfl
      rcases hq with rfl | rfl <;> simp at hself
    simp [hc]
  · decide
  · decide
  · decide
  · have hc : '\n' ≠ c := by
      rintro rfl
      exact hn (beq_self_eq_true _)
    simp [hc]
  all_goals simp [hhex]

/-! ## Texts -/

/-- Escaped characters up to the mark tell the characters and where they end. -/
theorem flatMap_escape_inj (hq : IsMark q) {cs ds r s : List Char}
    (h : cs.flatMap (escape q) ++ q :: r = ds.flatMap (escape q) ++ q :: s) : cs = ds ∧ r = s := by
  -- no character starts with the mark, so the mark is where both texts end
  induction cs generalizing ds with
  | nil =>
    cases ds with
    | nil => exact ⟨rfl, (List.cons.inj h).2⟩
    | cons d ds =>
      rw [List.flatMap_cons, List.append_assoc] at h
      exact absurd h.symm (escape_append_ne hq d _ _)
  | cons c cs ih =>
    cases ds with
    | nil =>
      rw [List.flatMap_cons, List.append_assoc] at h
      exact absurd h (escape_append_ne hq c _ _)
    | cons d ds =>
      rw [List.flatMap_cons, List.flatMap_cons, List.append_assoc, List.append_assoc] at h
      have hc := unescape_escape hq c (cs.flatMap (escape q) ++ q :: r)
      rw [h, unescape_escape hq d] at hc
      obtain ⟨rfl, hrest⟩ := Prod.mk.inj (Option.some.inj hc)
      obtain ⟨rfl, rfl⟩ := ih hrest.symm
      exact ⟨rfl, rfl⟩

/-- **Quoted characters** tell what they are and where they end. -/
theorem delimits_encode : Delimits encode := by
  intro cs ds r s h
  rw [encode, encode, List.cons_append, List.cons_append, List.append_assoc, List.append_assoc] at h
  obtain ⟨hmark, h⟩ := List.cons.inj h
  rw [← hmark] at h
  exact flatMap_escape_inj (isMark_mark cs) h

theorem newline_not_mem_encode (cs : List Char) : '\n' ∉ encode cs := by
  have hmark : '\n' ≠ mark cs := by rcases isMark_mark cs with h | h <;> rw [h] <;> decide
  have hbody : ∀ c ∈ cs, '\n' ∉ escape (mark cs) c := fun c _ =>
    newline_not_mem_escape (isMark_mark cs) c
  simpa [encode, hmark] using hbody

end Quoted

/-- **A quoted text** tells the text and where it ends. -/
theorem delimits_quoted : Delimits fun s => (quoted s).toList := by
  intro s t r r' h
  simp only [quoted, String.toList_ofList] at h
  obtain ⟨hst, hr⟩ := Quoted.delimits_encode h
  exact ⟨String.toList_inj.mp hst, hr⟩

/-! ## Lines -/

/-- No line feed breaks the text. -/
def OneLine (s : String) : Prop := '\n' ∉ s.toList

instance : DecidablePred OneLine := fun s => inferInstanceAs (Decidable ('\n' ∉ s.toList))

@[simp] theorem oneLine_append {s t : String} : OneLine (s ++ t) ↔ OneLine s ∧ OneLine t := by
  simp [OneLine]

theorem oneLine_intercalate {sep : String} {ls : List String} (hsep : OneLine sep)
    (h : ∀ l ∈ ls, OneLine l) : OneLine (sep.intercalate ls) := by
  rw [OneLine, String.toList_intercalate]
  induction ls with
  | nil => simp
  | cons l ls ih =>
    rw [List.forall_mem_cons] at h
    cases ls with
    | nil => simpa [OneLine] using h.1
    | cons m ls =>
      have hrest := ih h.2
      simp_all [OneLine, List.intercalate_cons_cons]

/-- **A quoted text is one line.** -/
theorem oneLine_quoted (s : String) : OneLine (quoted s) := by
  rw [OneLine, quoted, String.toList_ofList]
  exact Quoted.newline_not_mem_encode s.toList

end BlockLang.Text
