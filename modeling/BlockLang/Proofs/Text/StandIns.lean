import BlockLang.Proofs.Text.CodePoints
import BlockLang.Text.Letter
import BlockLang.Text.Numeral
import BlockLang.Text.StandIns
import Mathlib

/-!
# Stand-ins do no harm

A text without halves is read as it is. In any other text the stand-ins are symbols of no class, and
none that the text uses: they are printed as themselves, they are no letters, numerals or blanks,
and they lie outside of ASCII, where the delimiters are. Equal stand-ins are stand-ins for equal
halves. So as long as there are symbols enough, a disguised text gives the loose text again.
-/

namespace BlockLang.Text

namespace LooseText

end LooseText

namespace StandIns

/-! ## Texts without halves -/

end StandIns

/-! ## The symbols -/

namespace CodePoints

/-- Ranges of characters, in ascending order. -/
structure Proper (s : CodePoints) : Prop where
  valid : ∀ range ∈ s, range.1 ≤ range.2 ∧
    (range.2 < 0xD800 ∨ 0xDFFF < range.1 ∧ range.2 < 0x110000)
  ascending : s.Pairwise fun range later => range.2 < later.1

variable {s : CodePoints}

theorem toNat_ofNat {n : Nat} (h : n.isValidChar) : (Char.ofNat n).toNat = n := by
  rw [Char.ofNat, dif_pos h]
  rfl

theorem Proper.isValidChar (h : s.Proper) {range : Nat × Nat} (hr : range ∈ s) {n : Nat}
    (hlo : range.1 ≤ n) (hhi : n ≤ range.2) : n.isValidChar := by
  rcases (h.valid range hr).2 with hlow | ⟨hhigh, hmax⟩
  · exact .inl (by omega)
  · exact .inr ⟨by omega, by omega⟩

/-- The characters of a set are those with a code point in one of the ranges. -/
theorem Proper.mem_chars (h : s.Proper) {c : Char} :
    c ∈ s.chars ↔ ∃ range ∈ s, range.1 ≤ c.toNat ∧ c.toNat ≤ range.2 := by
  simp only [chars, List.mem_flatMap, List.mem_map, List.mem_range'_1]
  constructor
  · rintro ⟨range, hr, n, ⟨hlo, hhi⟩, rfl⟩
    have hn : n ≤ range.2 := by omega
    rw [toNat_ofNat (h.isValidChar hr hlo hn)]
    exact ⟨range, hr, hlo, hn⟩
  · rintro ⟨range, hr, hlo, hhi⟩
    exact ⟨range, hr, c.toNat, ⟨hlo, by omega⟩, Char.ofNat_toNat c⟩

/-- What is in one of the ranges is found. -/
theorem Proper.has (h : s.Proper) {n : Nat} {range : Nat × Nat} (hr : range ∈ s)
    (hlo : range.1 ≤ n) (hhi : n ≤ range.2) : s.has n = true := by
  obtain ⟨hvalid, hascending⟩ := h
  induction s with
  | nil => cases hr
  | cons first s ih =>
    rw [List.pairwise_cons] at hascending
    rcases List.mem_cons.mp hr with rfl | hlater
    · exact has_cons.mpr ⟨hlo, .inl hhi⟩
    · have hfirst := (hvalid first List.mem_cons_self).1
      have hbelow := hascending.1 range hlater
      have hrest := ih hlater (fun r hr => hvalid r (List.mem_cons_of_mem _ hr)) hascending.2
      exact has_cons.mpr ⟨by omega, .inr hrest⟩

/-- No character is listed twice. -/
theorem Proper.nodup_chars (h : s.Proper) : s.chars.Nodup := by
  refine List.nodup_flatMap.mpr ⟨fun range hr => ?_, ?_⟩
  · refine List.Nodup.map_on (fun m hm n hn heq => ?_) (List.nodup_range' ..)
    rw [List.mem_range'_1] at hm hn
    rw [← toNat_ofNat (h.isValidChar hr hm.1 (by omega)), heq,
      toNat_ofNat (h.isValidChar hr hn.1 (by omega))]
  · refine h.ascending.imp_of_mem fun {range later} hr hr' hlt c hc hc' => ?_
    obtain ⟨m, hm, rfl⟩ := List.mem_map.mp hc
    obtain ⟨n, hn, heq⟩ := List.mem_map.mp hc'
    rw [List.mem_range'_1] at hm hn
    have hsame : n = m := by
      rw [← toNat_ofNat (h.isValidChar hr' hn.1 (by omega)), heq,
        toNat_ofNat (h.isValidChar hr hm.1 (by omega))]
    omega

end CodePoints

theorem symbols_proper : symbols.Proper := ⟨by decide, by decide⟩

/-- **A symbol is of no class** that a reader of sources tells apart, and it is printed as
itself. -/
theorem class_of_mem_symbols {c : Char} (h : c ∈ symbols.chars) : isPrintable c = true ∧
    isLetter c = false ∧ isNumeral c = false ∧ isBlank c = false ∧ 0x7F < c.toNat := by
  obtain ⟨range, hr, hlo, hhi⟩ := symbols_proper.mem_chars.mp h
  have hc := symbols_proper.has hr hlo hhi
  have hhidden := CodePoints.not_has_of_apart (t := hidden) (by decide +kernel) hc
  have hletter := CodePoints.not_has_of_apart (t := letters) (by decide +kernel) hc
  have hnumeral := CodePoints.not_has_of_apart (t := numerals) (by decide +kernel) hc
  have hblank := CodePoints.not_has_of_apart (t := blanks) (by decide +kernel) hc
  have hascii : ∀ range ∈ symbols, 0x7F < range.1 := by decide
  refine ⟨?_, hletter, hnumeral, hblank, Nat.lt_of_lt_of_le (hascii range hr) hlo⟩
  rw [isPrintable, CodePoints.contains, hhidden]
  rfl

namespace StandIns

variable {t : LooseText} {u : Fin 0x800} {c : Char}

/-! ## Disguised texts -/

theorem pairs_of (t : LooseText) :
    (of t).pairs = (t.points.filterMap Point.half?).eraseDups.zip (free t) := by
  unfold of
  split
  · next h =>
    rw [h]
    rfl
  · rfl

/-- **A stand-in** is a symbol that the text does not use. -/
theorem mem_pairs (h : (u, c) ∈ (of t).pairs) : c ∈ symbols.chars ∧ .char c ∉ t.points := by
  rw [pairs_of] at h
  obtain ⟨hsymbol, hfree⟩ := List.mem_filter.mp (List.of_mem_zip h).2
  refine ⟨hsymbol, fun hc => ?_⟩
  have hchars : c ∈ t.chars := List.mem_filterMap.mpr ⟨_, hc, rfl⟩
  simp [hchars] at hfree

theorem map_snd_zip_sublist {α β : Type} (as : List α) (bs : List β) :
    ((as.zip bs).map (·.2)).Sublist bs := by
  induction as generalizing bs with
  | nil => exact List.nil_sublist bs
  | cons a as ih =>
    cases bs with
    | nil => exact .slnil
    | cons b bs => exact (ih bs).cons_cons b

/-- Equal stand-ins are stand-ins for equal halves. -/
theorem nodup_standIns (t : LooseText) : ((of t).pairs.map (·.2)).Nodup := by
  rw [pairs_of]
  exact (symbols_proper.nodup_chars.filter _).sublist (map_snd_zip_sublist ..)

theorem hidden?_of_mem (h : (u, c) ∈ (of t).pairs) : (of t).hidden? c = some u := by
  cases hfind : (of t).pairs.find? (·.2 == c) with
  | none => simpa using List.find?_eq_none.mp hfind _ h
  | some pair =>
    have hpair := List.mem_of_find?_eq_some hfind
    have hc : pair.2 = c := by simpa using List.find?_some hfind
    have heq := List.inj_on_of_nodup_map (nodup_standIns t) hpair h hc
    rw [hidden?, hfind, heq]
    rfl

theorem hidden?_of_char (h : .char c ∈ t.points) : (of t).hidden? c = none := by
  rw [hidden?, Option.map_eq_none_iff, List.find?_eq_none]
  rintro ⟨u, d⟩ hpair hd
  obtain rfl : d = c := by simpa using hd
  exact (mem_pairs hpair).2 h

/-- Where the symbols suffice, every half has its stand-in. -/
theorem mem_pairs_standIn (hfree : (t.points.filterMap Point.half?).eraseDups.length ≤
    (free t).length) (h : .half u ∈ t.points) : (u, (of t).standIn u) ∈ (of t).pairs := by
  have hu : u ∈ (of t).pairs.map (·.1) := by
    rw [pairs_of, List.map_fst_zip hfree, List.mem_eraseDups]
    exact List.mem_filterMap.mpr ⟨_, h, rfl⟩
  cases hlookup : (of t).pairs.lookup u with
  | none =>
    obtain ⟨pair, hpair, rfl⟩ := List.mem_map.mp hu
    simpa using List.lookup_eq_none_iff.mp hlookup pair hpair
  | some c =>
    obtain ⟨l, l', hl, -⟩ := List.lookup_eq_some_iff.mp hlookup
    rw [standIn, hlookup, hl]
    simp

/-- **What is revealed of a disguised text is the text**, where the symbols suffice. -/
theorem reveal_hide (hfree : (t.points.filterMap Point.half?).eraseDups.length ≤
    (free t).length) : (of t).reveal ((of t).hide t) = t := by
  have hpoint : ∀ p ∈ t.points, (of t).revealPoint (.char ((of t).hidePoint p)) = id p := by
    rintro (c | u) hp
    · simp [hidePoint, revealPoint, hidden?_of_char hp]
    · simp [hidePoint, revealPoint, hidden?_of_mem (mem_pairs_standIn hfree hp)]
  have hpoints : ((of t).reveal ((of t).hide t)).points =
      t.points.map fun p => (of t).revealPoint (.char ((of t).hidePoint p)) := by
    simp [reveal, hide, LooseText.ofString, Function.comp_def]
  rw [List.map_congr_left hpoint, List.map_id] at hpoints
  exact congrArg LooseText.mk hpoints

end StandIns

end BlockLang.Text
