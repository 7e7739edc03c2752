/-!
# The live set

A replica set keeps the replicas that are live in the order of the configuration, each with the type that its server
announced. Requests go to the first of them.
-/

namespace LockService

/-- The live replicas: the index of each in the configuration and the type that its server announced. -/
abbrev LiveSet := List (Nat × UInt8)

namespace LiveSet

def leave (index : Nat) (live : LiveSet) : LiveSet := live.filter (·.1 ≠ index)

/-- The live set with a replica at its place in the order, instead of an older entry. -/
def join (index : Nat) (initType : UInt8) (live : LiveSet) : LiveSet :=
  let others := leave index live
  others.takeWhile (·.1 < index) ++ (index, initType) :: others.dropWhile (·.1 < index)

def has (index : Nat) (live : LiveSet) : Bool := live.any (·.1 = index)

def first? (live : LiveSet) : Option Nat := live.head?.map (·.1)

theorem mem_leave_iff {index : Nat} {live : LiveSet} {entry : Nat × UInt8} :
    entry ∈ leave index live ↔ entry ∈ live ∧ entry.1 ≠ index := by
  simp [leave]

theorem mem_join_iff {index : Nat} {initType : UInt8} {live : LiveSet} {entry : Nat × UInt8} :
    entry ∈ join index initType live ↔ entry = (index, initType) ∨ (entry ∈ live ∧ entry.1 ≠ index) := by
  rw [← mem_leave_iff]
  have parts : entry ∈ leave index live ↔
      entry ∈ (leave index live).takeWhile (·.1 < index) ∨
        entry ∈ (leave index live).dropWhile (·.1 < index) := by
    rw [← List.mem_append, List.takeWhile_append_dropWhile]
  rw [parts]
  simp only [join, List.mem_append, List.mem_cons]
  exact or_left_comm

theorem has_eq_true_iff {index : Nat} {live : LiveSet} :
    has index live = true ↔ ∃ initType, (index, initType) ∈ live := by
  simp only [has, List.any_eq_true, Prod.exists, decide_eq_true_eq]
  constructor
  · rintro ⟨_, initType, hm, rfl⟩
    exact ⟨initType, hm⟩
  · rintro ⟨initType, hm⟩
    exact ⟨index, initType, hm, rfl⟩

theorem has_leave (index index' : Nat) (live : LiveSet) :
    has index' (leave index live) = (decide (index' ≠ index) && has index' live) := by
  rw [Bool.eq_iff_iff]
  simp only [has_eq_true_iff, mem_leave_iff, Bool.and_eq_true, decide_eq_true_eq]
  constructor
  · rintro ⟨initType, hm, hne⟩
    exact ⟨hne, initType, hm⟩
  · rintro ⟨hne, initType, hm⟩
    exact ⟨initType, hm, hne⟩

theorem has_join (index index' : Nat) (initType : UInt8) (live : LiveSet) :
    has index' (join index initType live) = (decide (index' = index) || has index' live) := by
  rw [Bool.eq_iff_iff]
  simp only [has_eq_true_iff, mem_join_iff, Bool.or_eq_true, decide_eq_true_eq]
  constructor
  · rintro ⟨initType', he | ⟨hm, -⟩⟩
    · exact .inl (congrArg Prod.fst he)
    · exact .inr ⟨initType', hm⟩
  · rintro (rfl | ⟨initType', hm⟩)
    · exact ⟨initType, .inl rfl⟩
    · by_cases he : index' = index
      · exact ⟨initType, .inl (by rw [he])⟩
      · exact ⟨initType', .inr ⟨hm, he⟩⟩

/-- There is a first live replica as long as there is one at all. -/
theorem has_first {index : Nat} {live : LiveSet} (h : first? live = some index) : has index live = true := by
  cases live with
  | nil => cases h
  | cons entry live =>
    cases h
    simp [has]

theorem has_eq_false_of_first {live : LiveSet} (h : first? live = none) (index : Nat) : has index live = false := by
  cases live with
  | nil => rfl
  | cons entry live => cases h

end LiveSet

end LockService
