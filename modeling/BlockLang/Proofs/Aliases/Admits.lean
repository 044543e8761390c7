import BlockLang.Table
import Mathlib.Data.List.Induction
import Mathlib.Data.List.Nodup

/-!
# What a table admits

Entries put into a table may replace what it has. A table admits what is given to its keys if that
replaces nothing and does not contradict itself. When such entries are put, what the table had stays
in its place, what is new goes to its end, and every key has what it had or what it was given.
-/

namespace BlockLang

namespace Table

variable {κ β : Type} [BEq κ]

/-! ## Putting entries -/

/-- Putting what a table has under a key changes nothing. -/
theorem put_of_find?_eq_some [LawfulBEq κ] {k : κ} {v : β} {t : Table κ β}
    (h : find? k t = some v) : t.put k v = t := by
  induction t with
  | nil => cases h
  | cons entry t ih =>
    obtain ⟨key, value⟩ := entry
    simp only [find?] at h
    simp only [put]
    split
    · next hkey =>
      rw [if_pos hkey] at h
      cases h
      rfl
    · next hkey =>
      rw [if_neg hkey] at h
      rw [ih h]

/-- A new key goes to the end. -/
theorem put_of_find?_eq_none {k : κ} {v : β} {t : Table κ β} (h : find? k t = none) :
    t.put k v = t ++ [(k, v)] := by
  induction t with
  | nil => rfl
  | cons entry t ih =>
    obtain ⟨key, value⟩ := entry
    simp only [find?] at h
    simp only [put]
    split
    · next hkey =>
      rw [if_pos hkey] at h
      cases h
    · next hkey =>
      rw [if_neg hkey] at h
      rw [ih h, List.cons_append]

theorem putAll_concat (t : Table κ β) (entries : List (κ × β)) (entry : κ × β) :
    t.putAll (entries ++ [entry]) = (t.putAll entries).put entry.1 entry.2 := by
  rw [putAll, List.foldl_append]
  rfl

/-- An entry after several puts is an old one or was put. -/
theorem mem_of_mem_putAll [LawfulBEq κ] {t : Table κ β} {entries : List (κ × β)} {entry : κ × β}
    (h : entry ∈ t.putAll entries) : entry ∈ t ∨ entry ∈ entries := by
  induction entries using List.reverseRecOn with
  | nil => exact .inl h
  | append_singleton entries last ih =>
    rw [putAll_concat] at h
    rcases mem_put h with rfl | h
    · exact .inr (List.mem_append_right _ List.mem_cons_self)
    · exact (ih h).imp_right (List.mem_append_left _)

theorem mem_of_mem_ofEntries [LawfulBEq κ] {entries : List (κ × β)} {entry : κ × β}
    (h : entry ∈ ofEntries entries) : entry ∈ entries :=
  (mem_of_mem_putAll h).resolve_left List.not_mem_nil

/-- Every key that is put is found. -/
theorem exists_find?_putAll [LawfulBEq κ] {t : Table κ β} {entries : List (κ × β)} {k : κ} {v : β}
    (h : (k, v) ∈ entries) : ∃ w, find? k (t.putAll entries) = some w := by
  induction entries using List.reverseRecOn with
  | nil => cases h
  | append_singleton entries last ih =>
    rw [putAll_concat, find?_put]
    split
    · exact ⟨last.2, rfl⟩
    · next hkey =>
      rcases List.mem_append.mp h with h | h
      · exact ih h
      · obtain rfl := List.mem_singleton.mp h
        exact absurd (beq_self_eq_true k) hkey

/-- Puts keep the keys apart. -/
theorem nodup_keys_putAll [LawfulBEq κ] {t : Table κ β} (h : (t.map (·.1)).Nodup)
    (entries : List (κ × β)) : ((t.putAll entries).map (·.1)).Nodup := by
  induction entries using List.reverseRecOn with
  | nil => exact h
  | append_singleton entries last ih =>
    rw [putAll_concat, keys_put]
    split
    · exact ih
    · next hnew =>
      rw [List.contains_iff_mem] at hnew
      rw [← List.concat_eq_append]
      exact List.Nodup.concat hnew ih

/-! ## Different keys -/

/-- Under different keys every entry is found. -/
theorem find?_of_mem [LawfulBEq κ] {t : Table κ β} (h : (t.map (·.1)).Nodup) {k : κ} {v : β}
    (hmem : (k, v) ∈ t) : find? k t = some v := by
  induction t with
  | nil => cases hmem
  | cons entry t ih =>
    obtain ⟨key, value⟩ := entry
    rw [List.map_cons, List.nodup_cons] at h
    rw [find?]
    rcases List.mem_cons.mp hmem with heq | hmem
    · cases heq
      rw [if_pos (beq_self_eq_true k)]
    · have hne : key ≠ k := by
        rintro rfl
        exact h.1 (List.mem_map_of_mem (f := (·.1)) hmem)
      rw [if_neg (by simpa using hne), ih h.2 hmem]

/-- Entries with different keys make a table as they are. -/
theorem ofEntries_of_nodup [LawfulBEq κ] {entries : List (κ × β)}
    (h : (entries.map (·.1)).Nodup) : ofEntries entries = entries := by
  induction entries using List.reverseRecOn with
  | nil => rfl
  | append_singleton entries last ih =>
    rw [List.map_append, List.map_singleton, ← List.concat_eq_append, List.nodup_concat] at h
    obtain ⟨hnew, hentries⟩ := h
    have hnone : find? last.1 entries = none := by
      cases hfind : find? last.1 entries with
      | none => rfl
      | some v => exact absurd (List.mem_map_of_mem (f := (·.1)) (mem_of_find? hfind)) hnew
    rw [ofEntries, putAll_concat, ← ofEntries, ih hentries, put_of_find?_eq_none hnone]

/-! ## Admitted entries -/

/-- **A table admits what is given** if no key is given another value than the table has for it, or
two values. -/
structure Admits (t : Table κ β) (given : κ → β → Prop) : Prop where
  known {k v w} : given k v → find? k t = some w → w = v
  unique {k v w} : given k v → given k w → w = v

/-- Entries give their keys their values. -/
abbrev GivenBy (entries : List (κ × β)) (k : κ) (v : β) : Prop := (k, v) ∈ entries

namespace Admits

variable {t : Table κ β} {given given' : κ → β → Prop} {entries : List (κ × β)}

/-- What gives less is admitted as well. -/
theorem mono (h : t.Admits given) (hsub : ∀ {k v}, given' k v → given k v) : t.Admits given' where
  known hk := h.known (hsub hk)
  unique hv hw := h.unique (hsub hv) (hsub hw)

/-- And so it is by an empty table. -/
theorem of_empty (h : t.Admits given) : Admits ([] : Table κ β) given where
  known _ hk := by cases hk
  unique hv hw := h.unique hv hw

theorem nil (t : Table κ β) : t.Admits (GivenBy []) where
  known h := absurd h List.not_mem_nil
  unique h := absurd h List.not_mem_nil

/-- One more entry is admitted if it contradicts neither the table nor the others. -/
theorem concat_iff {k : κ} {v : β} :
    t.Admits (GivenBy (entries ++ [(k, v)])) ↔
      t.Admits (GivenBy entries) ∧ (∀ w, find? k t = some w → w = v) ∧
        ∀ w, (k, w) ∈ entries → w = v := by
  have hlast : ∀ {l : κ} {u : β}, (l, u) ∈ entries ++ [(k, v)] ↔
      (l, u) ∈ entries ∨ (l = k ∧ u = v) := by simp
  constructor
  · intro h
    refine ⟨h.mono fun he => List.mem_append_left _ he, fun w => ?_, fun w hw => ?_⟩
    · exact h.known (hlast.mpr (.inr ⟨rfl, rfl⟩))
    · exact h.unique (hlast.mpr (.inr ⟨rfl, rfl⟩)) (hlast.mpr (.inl hw))
  · rintro ⟨h, hknown, hsame⟩
    refine ⟨fun {l u w} hu hw => ?_, fun {l u w} hu hw => ?_⟩
    · rcases hlast.mp hu with hu | ⟨hl, hv⟩
      · exact h.known hu hw
      · rw [hv, hknown w (hl ▸ hw)]
    · rcases hlast.mp hu with hu | ⟨hl, hv⟩ <;> rcases hlast.mp hw with hw | ⟨hl', hv'⟩
      · exact h.unique hu hw
      · rw [hv', hsame u (hl' ▸ hu)]
      · rw [hv, hsame w (hl ▸ hw)]
      · rw [hv, hv']

variable [LawfulBEq κ]

/-- **What admitted entries add**: every key has what it had, or what the entries give it. -/
theorem find?_putAll (h : t.Admits (GivenBy entries)) {k : κ} {v : β} :
    find? k (t.putAll entries) = some v ↔ find? k t = some v ∨ (k, v) ∈ entries := by
  induction entries using List.reverseRecOn with
  | nil => simp [putAll]
  | append_singleton entries last ih =>
    obtain ⟨l, u⟩ := last
    obtain ⟨hentries, hknown, hsame⟩ := concat_iff.mp h
    rw [putAll_concat, find?_put, List.mem_append, List.mem_singleton]
    by_cases hkey : (l == k) = true
    · obtain rfl := eq_of_beq hkey
      rw [if_pos hkey]
      constructor
      · intro heq
        cases heq
        exact .inr (.inr rfl)
      · rintro (hold | hmem | heq)
        · rw [hknown v hold]
        · rw [hsame v hmem]
        · cases heq
          rfl
    · have hne : (k, v) ≠ (l, u) := fun heq => by
        cases heq
        exact hkey (beq_self_eq_true k)
      rw [if_neg hkey, ih hentries]
      simp [hne]

/-- **Admitted entries go to the end**: those whose keys are new. -/
theorem putAll_eq_append (h : t.Admits (GivenBy entries)) :
    ∃ new, t.putAll entries = t ++ new ∧ ∀ entry ∈ new, find? entry.1 t = none := by
  induction entries using List.reverseRecOn with
  | nil => exact ⟨[], (List.append_nil t).symm, fun _ hmem => absurd hmem List.not_mem_nil⟩
  | append_singleton entries last ih =>
    obtain ⟨l, u⟩ := last
    obtain ⟨hentries, hknown, hsame⟩ := concat_iff.mp h
    obtain ⟨new, hnew, hfresh⟩ := ih hentries
    rw [putAll_concat]
    cases hl : find? l (t.putAll entries) with
    | some w =>
      -- the key is there already, and then with the same value
      obtain rfl : w = u := (hentries.find?_putAll.mp hl).elim (hknown w) (hsame w)
      exact ⟨new, by rw [put_of_find?_eq_some hl, hnew], hfresh⟩
    | none =>
      refine ⟨new ++ [(l, u)], ?_, fun entry hmem => ?_⟩
      · rw [put_of_find?_eq_none hl, hnew, List.append_assoc]
      · rcases List.mem_append.mp hmem with hmem | hmem
        · exact hfresh entry hmem
        · obtain rfl := List.mem_singleton.mp hmem
          cases hold : find? l t with
          | none => rfl
          | some w =>
            rw [hentries.find?_putAll.mpr (.inl hold)] at hl
            cases hl

/-- A table of admitted entries finds just these. -/
theorem find?_ofEntries (h : t.Admits (GivenBy entries)) {k : κ} {v : β} :
    find? k (ofEntries entries) = some v ↔ (k, v) ∈ entries := by
  rw [ofEntries, h.of_empty.find?_putAll]
  simp [find?]

theorem mem_ofEntries (h : t.Admits (GivenBy entries)) {k : κ} {v : β} :
    (k, v) ∈ ofEntries entries ↔ (k, v) ∈ entries :=
  ⟨mem_of_mem_ofEntries, fun hmem => mem_of_find? (h.find?_ofEntries.mpr hmem)⟩

/-- Without repetitions they are admitted as well. -/
theorem ofEntries (h : t.Admits (GivenBy entries)) : t.Admits (GivenBy (ofEntries entries)) :=
  h.mono mem_of_mem_ofEntries

end Admits

end Table

end BlockLang
