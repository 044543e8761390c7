import BlockLang.Text.CodePoints
import Mathlib

/-!
# Disjoint sets of code points

That two sets of code points have no member in common is seen from their ranges. One walk through
both sets compares each range of the one with the range of the other that may reach it.
-/

namespace BlockLang.Text.CodePoints

/-- Does a walk through two sets find no range of one that meets a range of the other? -/
def apart : CodePoints → CodePoints → Bool
  | [], _ => true
  | (lo, hi) :: s, t =>
    match t.dropWhile (fun range => Nat.blt range.2 lo) with
    | [] => true
    | (lo', hi') :: t' => Nat.blt hi lo' && apart s ((lo', hi') :: t')

variable {s t : CodePoints} {n lo : Nat}

theorem has_cons {range : Nat × Nat} :
    has n (range :: s) = true ↔ range.1 ≤ n ∧ (n ≤ range.2 ∨ has n s = true) := by
  obtain ⟨lo, hi⟩ := range
  rw [has]
  split
  · next hlt => simp [Nat.not_le.mpr hlt]
  · next hle =>
    rw [Nat.not_lt] at hle
    split
    · next hin => simp [hle, hin]
    · next hout => simp [hle, hout]

/-- Ranges below `n` may be left out. -/
theorem has_dropWhile (h : has n t = true) (hlo : lo ≤ n) :
    has n (t.dropWhile fun range => Nat.blt range.2 lo) = true := by
  induction t with
  | nil => exact h
  | cons range t ih =>
    rw [List.dropWhile_cons]
    split
    · next hbelow =>
      have hlt : range.2 < lo := by simpa using hbelow
      obtain ⟨-, hin | hin⟩ := has_cons.mp h
      · omega
      · exact ih hin
    · exact h

/-- No code point is in two sets that are apart. -/
theorem not_has_of_apart (h : apart s t = true) (hs : has n s = true) : has n t = false := by
  by_contra ht
  rw [Bool.not_eq_false] at ht
  induction s generalizing t with
  | nil => cases hs
  | cons range s ih =>
    obtain ⟨hlo, hin⟩ := has_cons.mp hs
    have hrest := has_dropWhile ht hlo
    rw [apart] at h
    split at h
    · next heq =>
      rw [heq] at hrest
      cases hrest
    · next lo' hi' t' heq =>
      rw [heq] at hrest
      rw [Bool.and_eq_true] at h
      obtain ⟨hhi, hapart⟩ := h
      rcases hin with hin | hin
      · have hlt : range.2 < lo' := by simpa using hhi
        have hle : lo' ≤ n := (has_cons.mp hrest).1
        omega
      · exact ih hapart hin hrest

end BlockLang.Text.CodePoints
