import LockService.Pending.Wheel
import Mathlib.Data.List.Nodup
import Mathlib.Data.List.TakeWhile

/-!
# Finding commands on the wheel

A wheel is tidy when its buckets stand in strictly increasing order of their seconds, none is empty, and each holds
every identifier once; the operations of the wheel keep it so. On a tidy wheel `find?` says what is parked at a
deadline under an identifier, and its laws tell what parking (`find?_insert`), taking off (`find?_remove`) and popping
what is due (`find?_later`, `mem_due_iff`) change about that.
-/

namespace LockService.Wheel

/-- The command parked at a deadline under an identifier. -/
def find? (second : Nat) (id : Ident) (wheel : Wheel) : Option EntryId := Assoc.get? id (bucket second wheel)

/-- All parked commands, in order of their deadlines. -/
def parked (wheel : Wheel) : List EntryId := wheel.flatMap fun (_, b) => b.map (·.2)

/-- Buckets in strict order, none of them empty, every identifier once in each. -/
structure Tidy (wheel : Wheel) : Prop where
  sorted : wheel.Pairwise fun x y => x.1 < y.1
  filled : ∀ x ∈ wheel, x.2 ≠ []
  keyed : ∀ x ∈ wheel, (x.2.map (·.1)).Nodup

theorem tidy_nil : Tidy [] := ⟨List.Pairwise.nil, by simp, by simp⟩

private theorem tidy_cons_iff {s : Nat} {b : Bucket} {rest : Wheel} :
    Tidy ((s, b) :: rest) ↔ b ≠ [] ∧ (b.map (·.1)).Nodup ∧ (∀ x ∈ rest, s < x.1) ∧ Tidy rest := by
  constructor
  · rintro ⟨hs, hf, hk⟩
    rw [List.pairwise_cons] at hs
    rw [List.forall_mem_cons] at hf hk
    exact ⟨hf.1, hk.1, hs.1, hs.2, hf.2, hk.2⟩
  · rintro ⟨hb, hn, hs, h⟩
    exact ⟨List.pairwise_cons.mpr ⟨hs, h.sorted⟩, List.forall_mem_cons.mpr ⟨hb, h.filled⟩,
      List.forall_mem_cons.mpr ⟨hn, h.keyed⟩⟩

private theorem Tidy.sublist {wheel wheel' : Wheel} (h : Tidy wheel) (hs : wheel'.Sublist wheel) : Tidy wheel' :=
  ⟨h.sorted.sublist hs, fun x hx => h.filled x (hs.mem hx), fun x hx => h.keyed x (hs.mem hx)⟩

/-! ### Buckets -/

@[simp] theorem bucket_nil (second : Nat) : bucket second [] = [] := rfl

private theorem bucket_cons (second s : Nat) (b : Bucket) (rest : Wheel) :
    bucket second ((s, b) :: rest) = if s = second then b else bucket second rest := by
  unfold bucket
  by_cases h : s = second <;> simp [Assoc.get?, h]

private theorem bucket_eq_nil_of_lt {second : Nat} {wheel : Wheel} (h : ∀ x ∈ wheel, second < x.1) :
    bucket second wheel = [] := by
  induction wheel with
  | nil => rfl
  | cons x rest ih =>
    obtain ⟨s, b⟩ := x
    rw [List.forall_mem_cons] at h
    rw [bucket_cons, if_neg (Nat.ne_of_gt h.1), ih h.2]

/-- On a tidy wheel every bucket is found under its second. -/
theorem Tidy.bucket_eq {wheel : Wheel} (h : Tidy wheel) {s : Nat} {b : Bucket} (hm : (s, b) ∈ wheel) :
    bucket s wheel = b := by
  induction wheel with
  | nil => cases hm
  | cons x rest ih =>
    obtain ⟨t, c⟩ := x
    obtain ⟨-, -, hs, hr⟩ := tidy_cons_iff.mp h
    rw [bucket_cons]
    rcases List.mem_cons.mp hm with he | hm
    · cases he
      rw [if_pos rfl]
    · rw [if_neg (Nat.ne_of_lt (hs _ hm)), ih hr hm]

private theorem mem_of_mem_bucket {second : Nat} {wheel : Wheel} {x : Ident × EntryId} (h : x ∈ bucket second wheel) :
    (second, bucket second wheel) ∈ wheel := by
  induction wheel with
  | nil => cases h
  | cons y rest ih =>
    obtain ⟨s, b⟩ := y
    rw [bucket_cons] at h ⊢
    by_cases hs : s = second
    · rw [if_pos hs, hs]
      exact List.mem_cons_self
    · rw [if_neg hs] at h ⊢
      exact List.mem_cons_of_mem _ (ih h)

private theorem bucket_insert {wheel : Wheel} (h : Tidy wheel) (second : Nat) (id : Ident) (entry : EntryId) (s : Nat) :
    bucket s (insert second id entry wheel) =
      if s = second then Assoc.insert id entry (bucket second wheel) else bucket s wheel := by
  induction wheel with
  | nil =>
    simp only [insert, bucket_cons, bucket_nil, eq_comm (a := second)]
    rfl
  | cons x rest ih =>
    obtain ⟨t, b⟩ := x
    obtain ⟨-, -, hs, hr⟩ := tidy_cons_iff.mp h
    rw [insert]
    -- the new bucket comes before this one, is this one, or comes later
    by_cases hlt : second < t
    · have hnil : bucket second ((t, b) :: rest) = [] := by
        apply bucket_eq_nil_of_lt
        rw [List.forall_mem_cons]
        exact ⟨hlt, fun y hy => Nat.lt_trans hlt (hs y hy)⟩
      rw [if_pos hlt, bucket_cons, hnil]
      by_cases he : s = second
      · rw [if_pos he.symm, if_pos he]; rfl
      · rw [if_neg (Ne.symm he), if_neg he]
    · rw [if_neg hlt]
      by_cases ht : t = second
      · rw [if_pos ht, bucket_cons, bucket_cons, bucket_cons, if_pos ht]
        by_cases he : s = second
        · rw [if_pos he, if_pos (ht.trans he.symm)]
        · rw [if_neg he, if_neg (fun h => he (h.symm.trans ht)), if_neg (fun h => he (h.symm.trans ht))]
      · rw [if_neg ht, bucket_cons, ih hr, bucket_cons, bucket_cons, if_neg ht]
        by_cases he : s = second
        · rw [if_neg (fun h => ht (h.trans he)), if_pos he, if_pos he]
        · rw [if_neg he, if_neg he]

private theorem bucket_remove {wheel : Wheel} (h : Tidy wheel) (second : Nat) (id : Ident) (s : Nat) :
    bucket s (remove second id wheel) =
      if s = second then Assoc.erase id (bucket second wheel) else bucket s wheel := by
  induction wheel with
  | nil => by_cases he : s = second <;> simp [he, remove, Assoc.erase]
  | cons x rest ih =>
    obtain ⟨t, b⟩ := x
    obtain ⟨-, -, hs, hr⟩ := tidy_cons_iff.mp h
    rw [remove]
    -- a bucket that becomes empty is dropped, and no later one has its second
    by_cases ht : t = second
    · subst ht
      have hnil : bucket t rest = [] := bucket_eq_nil_of_lt hs
      simp only [if_true, bucket_cons]
      by_cases he : s = t
      · subst he
        by_cases hb : Assoc.erase id b = []
        · simp [hb, hnil]
        · simp [hb, bucket_cons]
      · by_cases hb : Assoc.erase id b = []
        · simp [hb, he, Ne.symm he]
        · simp [hb, he, Ne.symm he, bucket_cons]
    · rw [if_neg ht, bucket_cons, ih hr, bucket_cons, bucket_cons, if_neg ht]
      by_cases he : s = second
      · rw [if_neg (fun h => ht (h.trans he)), if_pos he, if_pos he]
      · rw [if_neg he, if_neg he]

private theorem bucket_later {wheel : Wheel} (h : Tidy wheel) (second s : Nat) :
    bucket s (later second wheel) = if s ≤ second then [] else bucket s wheel := by
  induction wheel with
  | nil => by_cases he : s ≤ second <;> simp [he, later]
  | cons x rest ih =>
    obtain ⟨t, b⟩ := x
    obtain ⟨-, -, hs, hr⟩ := tidy_cons_iff.mp h
    by_cases ht : t ≤ second
    · have : later second ((t, b) :: rest) = later second rest := by simp [later, ht]
      rw [this, ih hr, bucket_cons]
      by_cases he : s ≤ second
      · rw [if_pos he, if_pos he]
      · rw [if_neg he, if_neg he, if_neg (by omega)]
    · have : later second ((t, b) :: rest) = (t, b) :: rest := by simp [later, ht]
      rw [this]
      by_cases he : s ≤ second
      · rw [if_pos he]
        apply bucket_eq_nil_of_lt
        rw [List.forall_mem_cons]
        exact ⟨by omega, fun y hy => by have := hs y hy; omega⟩
      · rw [if_neg he]

/-! ### Tidiness -/

private theorem mem_insert {second s : Nat} {id : Ident} {entry : EntryId} {wheel : Wheel} {b : Bucket}
    (h : (s, b) ∈ insert second id entry wheel) : s = second ∨ (s, b) ∈ wheel := by
  induction wheel with
  | nil => exact .inl (by simpa [insert] using congrArg Prod.fst (List.mem_singleton.mp h))
  | cons x rest ih =>
    obtain ⟨t, c⟩ := x
    rw [insert] at h
    split at h
    · rcases List.mem_cons.mp h with he | hm
      · exact .inl (congrArg Prod.fst he)
      · exact .inr hm
    · split at h
      · rename_i ht
        rcases List.mem_cons.mp h with he | hm
        · exact .inl ((congrArg Prod.fst he).trans ht)
        · exact .inr (List.mem_cons_of_mem _ hm)
      · rcases List.mem_cons.mp h with he | hm
        · exact .inr (he ▸ List.mem_cons_self)
        · exact (ih hm).imp_right (List.mem_cons_of_mem _)

private theorem mem_remove {second : Nat} {id : Ident} {wheel : Wheel} {x : Nat × Bucket}
    (h : x ∈ remove second id wheel) : ∃ y ∈ wheel, y.1 = x.1 := by
  induction wheel with
  | nil => cases h
  | cons y rest ih =>
    obtain ⟨t, c⟩ := y
    rw [remove] at h
    split at h
    · by_cases he : Assoc.erase id c = []
      · have hm : x ∈ rest := by simpa [he] using h
        exact ⟨x, List.mem_cons_of_mem _ hm, rfl⟩
      · have hf : (Assoc.erase id c).isEmpty = false := by simpa using he
        simp only [hf, Bool.false_eq_true, if_false] at h
        rcases List.mem_cons.mp h with rfl | hm
        · exact ⟨_, List.mem_cons_self, rfl⟩
        · exact ⟨x, List.mem_cons_of_mem _ hm, rfl⟩
    · rcases List.mem_cons.mp h with rfl | hm
      · exact ⟨_, List.mem_cons_self, rfl⟩
      · obtain ⟨y, hy, he⟩ := ih hm
        exact ⟨y, List.mem_cons_of_mem _ hy, he⟩

private theorem insert_ne_nil (id : Ident) (entry : EntryId) (b : Bucket) : Assoc.insert id entry b ≠ [] := by
  simp [Assoc.insert]

/-- An entry goes into the bucket of its second, which is made where there is none. -/
theorem Tidy.insert {wheel : Wheel} (h : Tidy wheel) (second : Nat) (id : Ident) (entry : EntryId) :
    Tidy (wheel.insert second id entry) := by
  induction wheel with
  | nil => exact tidy_cons_iff.mpr ⟨by simp, by simp, by simp, tidy_nil⟩
  | cons x rest ih =>
    obtain ⟨t, b⟩ := x
    obtain ⟨hb, hn, hs, hr⟩ := tidy_cons_iff.mp h
    rw [Wheel.insert]
    split
    · rename_i hlt
      refine tidy_cons_iff.mpr ⟨by simp, by simp, ?_, h⟩
      rw [List.forall_mem_cons]
      exact ⟨hlt, fun y hy => Nat.lt_trans hlt (hs y hy)⟩
    · split
      · exact tidy_cons_iff.mpr ⟨insert_ne_nil id entry b, Assoc.nodup_keys_insert hn id entry, hs, hr⟩
      · refine tidy_cons_iff.mpr ⟨hb, hn, ?_, ih hr⟩
        rintro ⟨s, c⟩ hc
        rcases mem_insert hc with he | hm
        · show t < s
          omega
        · exact hs _ hm

/-- A bucket that becomes empty goes with its last entry. -/
theorem Tidy.remove {wheel : Wheel} (h : Tidy wheel) (second : Nat) (id : Ident) :
    Tidy (wheel.remove second id) := by
  induction wheel with
  | nil => exact tidy_nil
  | cons x rest ih =>
    obtain ⟨t, b⟩ := x
    obtain ⟨hb, hn, hs, hr⟩ := tidy_cons_iff.mp h
    rw [Wheel.remove]
    split
    · by_cases he : Assoc.erase id b = []
      · simpa [he] using hr
      · have : (Assoc.erase id b).isEmpty = false := by simpa using he
        simp only [this]
        exact tidy_cons_iff.mpr ⟨he, Assoc.nodup_keys_erase hn id, hs, hr⟩
    · refine tidy_cons_iff.mpr ⟨hb, hn, ?_, ih hr⟩
      intro x hx
      obtain ⟨y, hy, he⟩ := mem_remove hx
      rw [← he]
      exact hs y hy

/-- What is left when all that is due is taken away is as tidy as it was. -/
theorem Tidy.later {wheel : Wheel} (h : Tidy wheel) (second : Nat) : Tidy (wheel.later second) :=
  h.sublist (List.dropWhile_sublist _)

/-! ### What is parked -/

/-- What is inserted is found at its place, in place of what was there, and nothing else moves. -/
theorem find?_insert {wheel : Wheel} (h : Tidy wheel) (second : Nat) (id : Ident) (entry : EntryId) (s : Nat)
    (i : Ident) :
    find? s i (wheel.insert second id entry) =
      if s = second ∧ i = id then some entry else find? s i wheel := by
  unfold find?
  rw [bucket_insert h]
  by_cases hs : s = second
  · subst hs
    by_cases hi : i = id
    · subst hi
      simp
    · simp [hi, Assoc.get?_insert_of_ne hi]
  · simp [hs]

/-- What is removed is not found any more, and nothing else moves. -/
theorem find?_remove {wheel : Wheel} (h : Tidy wheel) (second : Nat) (id : Ident) (s : Nat) (i : Ident) :
    find? s i (wheel.remove second id) = if s = second ∧ i = id then none else find? s i wheel := by
  unfold find?
  rw [bucket_remove h]
  by_cases hs : s = second
  · subst hs
    by_cases hi : i = id
    · subst hi
      simp
    · simp [hi, Assoc.get?_erase_of_ne hi]
  · simp [hs]

/-- What stays when all that is due is taken away are the buckets of the seconds after. -/
theorem find?_later {wheel : Wheel} (h : Tidy wheel) (second s : Nat) (i : Ident) :
    find? s i (wheel.later second) = if s ≤ second then none else find? s i wheel := by
  unfold find?
  rw [bucket_later h]
  by_cases hs : s ≤ second
  · rw [if_pos hs, if_pos hs]
    rfl
  · rw [if_neg hs, if_neg hs]

theorem mem_parked_iff {wheel : Wheel} (h : Tidy wheel) {entry : EntryId} :
    entry ∈ parked wheel ↔ ∃ s i, find? s i wheel = some entry := by
  simp only [parked, List.mem_flatMap, List.mem_map]
  constructor
  · rintro ⟨⟨s, b⟩, hb, ⟨i, e⟩, hi, rfl⟩
    refine ⟨s, i, ?_⟩
    rw [find?, h.bucket_eq hb, Assoc.get?_eq_some_iff (h.keyed _ hb)]
    exact hi
  · rintro ⟨s, i, hf⟩
    have hm := Assoc.mem_of_get?_eq_some hf
    exact ⟨_, mem_of_mem_bucket hm, _, hm, rfl⟩

/-- What is due are the entries found at the given second or before. -/
theorem mem_due_iff {wheel : Wheel} (h : Tidy wheel) {second : Nat} {entry : EntryId} :
    entry ∈ due second wheel ↔ ∃ s i, s ≤ second ∧ find? s i wheel = some entry := by
  simp only [due, List.mem_flatMap, List.mem_map]
  constructor
  · rintro ⟨⟨s, b⟩, hb, ⟨i, e⟩, hi, rfl⟩
    have hs : s ≤ second := by simpa using List.mem_takeWhile_imp hb
    refine ⟨s, i, hs, ?_⟩
    have hb := (List.takeWhile_sublist _).mem hb
    rw [find?, h.bucket_eq hb, Assoc.get?_eq_some_iff (h.keyed _ hb)]
    exact hi
  · rintro ⟨s, i, hs, hf⟩
    have hm := Assoc.mem_of_get?_eq_some hf
    have hw : (s, bucket s wheel) ∈ wheel.takeWhile (fun (s, _) => s ≤ second) ++ later second wheel := by
      rw [later, List.takeWhile_append_dropWhile]
      exact mem_of_mem_bucket hm
    -- a bucket that stays is not due
    rcases List.mem_append.mp hw with hw | hw
    · exact ⟨_, hw, (i, entry), hm, rfl⟩
    · have : bucket s (later second wheel) = bucket s wheel := (h.later second).bucket_eq hw
      rw [bucket_later h, if_pos hs] at this
      rw [← this] at hm
      cases hm

/-- What is due and what stays make up everything parked. -/
theorem due_append_parked_later (second : Nat) (wheel : Wheel) :
    due second wheel ++ parked (later second wheel) = parked wheel := by
  rw [due, parked, later, ← List.flatMap_append, List.takeWhile_append_dropWhile, parked]

/-- The size of a wheel is the number of its entries. -/
theorem size_eq (wheel : Wheel) : size wheel = (parked wheel).length := by
  simp [size, parked, List.length_flatMap]

/-- When every command is parked in one place only, none is listed twice. -/
theorem nodup_parked {wheel : Wheel} (h : Tidy wheel)
    (hu : ∀ s i t j e, find? s i wheel = some e → find? t j wheel = some e → s = t ∧ i = j) :
    (parked wheel).Nodup := by
  have lookup : ∀ {s b i e}, (s, b) ∈ wheel → (i, e) ∈ b → find? s i wheel = some e := by
    intro s b i e hb hi
    rw [find?, h.bucket_eq hb, Assoc.get?_eq_some_iff (h.keyed _ hb)]
    exact hi
  -- within one bucket the keys tell commands apart, and no command is in two buckets
  rw [parked, List.nodup_flatMap]
  constructor
  · rintro ⟨s, b⟩ hb
    refine List.Nodup.map_on ?_ (List.Nodup.of_map _ (h.keyed _ hb))
    rintro ⟨i, e⟩ hi ⟨j, e'⟩ hj he
    cases he
    rw [(hu s i s j e (lookup hb hi) (lookup hb hj)).2]
  · refine h.sorted.imp_of_mem ?_
    rintro ⟨s, b⟩ ⟨t, c⟩ hb hc hlt e he he'
    obtain ⟨⟨i, _⟩, hi, rfl⟩ := List.mem_map.mp he
    obtain ⟨⟨j, e⟩, hj, rfl⟩ := List.mem_map.mp he'
    exact Nat.ne_of_lt hlt (hu s i t j e (lookup hb hi) (lookup hc hj)).1

end LockService.Wheel
