/-!
# Association lists

Finite maps as lists of keys and values. `Assoc.insert` replaces the value of a key, so that a list built from the
empty one holds every key once, in the order in which the present values were inserted.
-/

namespace LockService.Assoc

variable {κ α : Type} [DecidableEq κ]

def get? (key : κ) : List (κ × α) → Option α
  | [] => none
  | (k, v) :: rest => if k = key then some v else get? key rest

def erase (key : κ) (entries : List (κ × α)) : List (κ × α) := entries.filter fun entry => entry.1 ≠ key

/-- The list with a value for a key, in place of an older one. -/
def insert (key : κ) (value : α) (entries : List (κ × α)) : List (κ × α) := erase key entries ++ [(key, value)]

@[simp] theorem get?_erase_self (key : κ) (entries : List (κ × α)) : get? key (erase key entries) = none := by
  induction entries with
  | nil => rfl
  | cons entry rest ih =>
    obtain ⟨k, v⟩ := entry
    by_cases h : k = key
    · simpa [erase, h] using ih
    · simp only [erase, List.filter_cons, ne_eq, h, not_false_eq_true, decide_true, ↓reduceIte, get?]
      exact ih

theorem get?_erase_of_ne {key other : κ} (h : other ≠ key) (entries : List (κ × α)) :
    get? other (erase key entries) = get? other entries := by
  induction entries with
  | nil => rfl
  | cons entry rest ih =>
    obtain ⟨k, v⟩ := entry
    by_cases hk : k = key
    · have ho : k ≠ other := fun e => h (e ▸ hk)
      have : erase key ((k, v) :: rest) = erase key rest := by simp [erase, hk]
      rw [this, ih, get?, if_neg ho]
    · have : erase key ((k, v) :: rest) = (k, v) :: erase key rest := by simp [erase, hk]
      rw [this, get?, get?, ih]

theorem erase_of_get?_eq_none {key : κ} {entries : List (κ × α)} (h : get? key entries = none) :
    erase key entries = entries := by
  induction entries with
  | nil => rfl
  | cons entry rest ih =>
    obtain ⟨k, v⟩ := entry
    by_cases hk : k = key
    · simp [get?, hk] at h
    · rw [get?, if_neg hk] at h
      have : erase key ((k, v) :: rest) = (k, v) :: erase key rest := by simp [erase, hk]
      rw [this, ih h]

theorem get?_append (key : κ) (xs ys : List (κ × α)) :
    get? key (xs ++ ys) = (get? key xs).or (get? key ys) := by
  induction xs with
  | nil => rfl
  | cons entry rest ih =>
    obtain ⟨k, v⟩ := entry
    by_cases h : k = key <;> simp [get?, h, ih]

@[simp] theorem get?_insert_self (key : κ) (value : α) (entries : List (κ × α)) :
    get? key (insert key value entries) = some value := by
  simp [insert, get?_append, get?]

theorem get?_insert_of_ne {key other : κ} (h : other ≠ key) (value : α) (entries : List (κ × α)) :
    get? other (insert key value entries) = get? other entries := by
  simp [insert, get?_append, get?_erase_of_ne h, get?, Ne.symm h]

theorem mem_of_get?_eq_some {key : κ} {value : α} {entries : List (κ × α)} (h : get? key entries = some value) :
    (key, value) ∈ entries := by
  induction entries with
  | nil => cases h
  | cons entry rest ih =>
    obtain ⟨k, v⟩ := entry
    by_cases hk : k = key
    · simp only [get?, if_pos hk, Option.some.injEq] at h
      rw [hk, h]
      exact List.mem_cons_self
    · rw [get?, if_neg hk] at h
      exact List.mem_cons_of_mem _ (ih h)

/-- In a list that holds every key once, the entries are what the keys lead to. -/
theorem get?_eq_some_iff {entries : List (κ × α)} (hn : (entries.map (·.1)).Nodup) {key : κ} {value : α} :
    get? key entries = some value ↔ (key, value) ∈ entries := by
  refine ⟨mem_of_get?_eq_some, fun h => ?_⟩
  induction entries with
  | nil => cases h
  | cons entry rest ih =>
    obtain ⟨k, v⟩ := entry
    rw [List.map_cons, List.nodup_cons] at hn
    rcases List.mem_cons.mp h with he | hr
    · cases he
      rw [get?, if_pos rfl]
    · have hk : k ≠ key := fun e => hn.1 (List.mem_map.mpr ⟨(key, value), hr, e.symm⟩)
      rw [get?, if_neg hk]
      exact ih hn.2 hr

theorem nodup_keys_erase {entries : List (κ × α)} (hn : (entries.map (·.1)).Nodup) (key : κ) :
    ((erase key entries).map (·.1)).Nodup :=
  hn.sublist (List.filter_sublist.map _)

theorem nodup_keys_insert {entries : List (κ × α)} (hn : (entries.map (·.1)).Nodup) (key : κ) (value : α) :
    ((insert key value entries).map (·.1)).Nodup := by
  rw [insert, List.map_append, List.nodup_append]
  refine ⟨nodup_keys_erase hn key, by simp, ?_⟩
  intro a ha b hb
  obtain ⟨entry, he, rfl⟩ := List.mem_map.mp ha
  have := (List.mem_filter.mp he).2
  simp only [List.map_cons, List.map_nil, List.mem_singleton] at hb
  simpa [hb] using this

end LockService.Assoc
