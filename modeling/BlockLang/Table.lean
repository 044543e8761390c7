/-!
# Tables

A table is a list of entries in the order in which their keys were first put. Putting a key again
replaces its value and keeps its place.
-/

namespace BlockLang

/-- Entries in the order in which their keys first came. -/
abbrev Table (κ β : Type) := List (κ × β)

namespace Table

variable {κ β : Type} [BEq κ]

/-- The value of the first entry whose key equals `k`. -/
def find? (k : κ) : Table κ β → Option β
  | [] => none
  | (key, value) :: t => if key == k then some value else find? k t

/-- The table with `v` under the key `k`: in the place of an equal key, else at the end. -/
def put (k : κ) (v : β) : Table κ β → Table κ β
  | [] => [(k, v)]
  | (key, value) :: t => if key == k then (key, v) :: t else (key, value) :: put k v t

/-- The table with all `entries` put in turn. -/
def putAll (t : Table κ β) (entries : List (κ × β)) : Table κ β :=
  entries.foldl (fun t entry => t.put entry.1 entry.2) t

/-- The table of the entries put in turn into an empty one. -/
def ofEntries (entries : List (κ × β)) : Table κ β := putAll [] entries

/-- After a put, its key has the new value and every other key the value it had. -/
theorem find?_put [LawfulBEq κ] (k l : κ) (v : β) (t : Table κ β) :
    find? l (t.put k v) = if k == l then some v else find? l t := by
  induction t with
  | nil => rfl
  | cons entry t ih =>
    obtain ⟨key, value⟩ := entry
    simp only [put]
    split
    · next h =>
      obtain rfl := eq_of_beq h
      simp only [find?]
      split <;> rfl
    · next h =>
      simp only [find?]
      split
      · next hl =>
        rw [if_neg]
        intro hk
        exact h (by rw [eq_of_beq hl, eq_of_beq hk]; exact beq_self_eq_true l)
      · exact ih

/-- Putting an old key again keeps the keys and their order; a new key goes to the end. -/
theorem keys_put [LawfulBEq κ] (k : κ) (v : β) (t : Table κ β) :
    (t.put k v).map (·.1) =
      if (t.map (·.1)).contains k then t.map (·.1) else t.map (·.1) ++ [k] := by
  induction t with
  | nil => rfl
  | cons entry t ih =>
    obtain ⟨key, value⟩ := entry
    simp only [put]
    split
    · next h => simp [eq_of_beq h]
    · next h =>
      have other : (k == key) = false := by
        rw [beq_eq_false_iff_ne]
        exact fun e => h (by rw [e]; exact beq_self_eq_true key)
      simp only [List.map_cons, List.contains_cons, other, Bool.false_or, ih]
      split <;> rfl

/-- What is found is an entry. -/
theorem mem_of_find? [LawfulBEq κ] {k : κ} {v : β} {t : Table κ β} (h : find? k t = some v) :
    (k, v) ∈ t := by
  induction t with
  | nil => cases h
  | cons entry t ih =>
    obtain ⟨key, value⟩ := entry
    unfold find? at h
    split at h
    · next hkey =>
      obtain rfl := eq_of_beq hkey
      cases h
      exact List.mem_cons_self
    · exact List.mem_cons_of_mem _ (ih h)

/-- An entry after a put is the one that was put or an old one. -/
theorem mem_put [LawfulBEq κ] {k : κ} {v : β} {t : Table κ β} {entry : κ × β}
    (h : entry ∈ t.put k v) : entry = (k, v) ∨ entry ∈ t := by
  induction t with
  | nil => exact .inl (List.mem_singleton.mp h)
  | cons first t ih =>
    obtain ⟨key, value⟩ := first
    simp only [put] at h
    split at h
    · next hkey =>
      obtain rfl := eq_of_beq hkey
      exact (List.mem_cons.mp h).imp_right (List.mem_cons_of_mem _)
    · rcases List.mem_cons.mp h with rfl | h
      · exact .inr List.mem_cons_self
      · exact (ih h).imp_right (List.mem_cons_of_mem _)

/-- Changing the values of a table changes what is found. -/
theorem find?_map {γ : Type} (f : β → γ) (k : κ) (t : Table κ β) :
    find? k (t.map fun entry => (entry.1, f entry.2)) = (find? k t).map f := by
  induction t with
  | nil => rfl
  | cons entry t ih =>
    obtain ⟨key, value⟩ := entry
    simp only [List.map_cons, find?]
    split
    · rfl
    · exact ih

section

variable {κ' : Type} [BEq κ'] {f : κ → κ'} (hf : ∀ k l, (f k == f l) = (k == l))

include hf

/-- Renaming the keys of a table renames the key that is put. -/
theorem put_rename (k : κ) (v : β) (t : Table κ β) :
    put (f k) v (t.map fun entry => (f entry.1, entry.2)) =
      (t.put k v).map fun entry => (f entry.1, entry.2) := by
  induction t with
  | nil => rfl
  | cons entry t ih =>
    obtain ⟨key, value⟩ := entry
    simp only [List.map_cons, put, hf, ih]
    split <;> rfl

/-- Entries with renamed keys make a table with renamed keys. -/
theorem ofEntries_rename (entries : List (κ × β)) :
    ofEntries (entries.map fun entry => (f entry.1, entry.2)) =
      (ofEntries entries).map fun entry => (f entry.1, entry.2) := by
  have hputAll : ∀ t : Table κ β,
      putAll (t.map fun entry => (f entry.1, entry.2))
          (entries.map fun entry => (f entry.1, entry.2)) =
        (t.putAll entries).map fun entry => (f entry.1, entry.2) := by
    induction entries with
    | nil => exact fun t => rfl
    | cons entry entries ih =>
      intro t
      simp only [putAll, List.map_cons, List.foldl_cons] at ih ⊢
      rw [put_rename hf, ih]
  exact hputAll []

end

end Table

end BlockLang
