import LockService.Proofs.Idents
import LockService.Wire.SharedSource

/-!
# Identifiers drawn by several threads

However the steps of several threads that draw from one counter follow each other, the identifiers are those that a
single source gives, in the order in which the counter was taken. They carry what each thread read and count up from
one to the next, and the first 2³¹ are distinct whatever was read (`SharedSource.draws_are_distinct`).
-/

namespace LockService

/-! ### The parts of an identifier -/

namespace Moment

variable (moment : Moment) (counter : UInt32)

private theorem toList_ident : (moment.ident counter).toList = bigEndian 6 moment.millis.toNat ++
    (bigEndian 6 moment.random.toNat ++ bigEndian 4 (counter &&& 0x7fffffff).toNat) := List.append_assoc ..

private theorem clock_ident : (moment.ident counter).clock = moment.millis.toNat % 281474976710656 := by
  rw [Ident.clock, toList_ident, List.take_left' (length_bigEndian ..), ofBigEndian_bigEndian]
  rfl

private theorem random_ident : (moment.ident counter).random = moment.random.toNat % 281474976710656 := by
  rw [Ident.random, toList_ident, List.drop_left' (length_bigEndian ..), List.take_left' (length_bigEndian ..),
    ofBigEndian_bigEndian]
  rfl

end Moment

/-- The identifier drawn at a place has the counter of the source plus that place. -/
theorem IdSource.getElem_take {count i : Nat} (source : IdSource) (hi : i < (source.take count).length) :
    (source.take count)[i] = (source.moments (source.drawn + i)).ident (source.counter + UInt32.ofNat i) := by
  rw [getElem_take_eq_upcoming, upcoming_iterate]

/-- Two moments look the same in identifiers: the low 48 bits of the clock agree, and those of the random word. -/
structure Moment.Agree (moment other : Moment) : Prop where
  clock : moment.millis.toNat % 281474976710656 = other.millis.toNat % 281474976710656
  random : moment.random.toNat % 281474976710656 = other.random.toNat % 281474976710656

/-- Two draws give the same identifier only if the counter has come round between them and the moments look the same. -/
theorem IdSource.agree_of_upcoming_eq {ids : IdSource} {i j : Nat}
    (hid : (advance^[i] ids).upcoming = (advance^[j] ids).upcoming) :
    i % 2147483648 = j % 2147483648 ∧ (ids.moments (ids.drawn + i)).Agree (ids.moments (ids.drawn + j)) := by
  rw [upcoming_iterate, upcoming_iterate] at hid
  have hstamp := congrArg (fun id : Ident => id.stamp.toNat) hid
  have hclock := congrArg Ident.clock hid
  have hrandom := congrArg Ident.random hid
  simp only [Moment.toNat_stamp_ident, UInt32.toNat_add, UInt32.toNat_ofNat'] at hstamp
  rw [Moment.clock_ident, Moment.clock_ident] at hclock
  rw [Moment.random_ident, Moment.random_ident] at hrandom
  exact ⟨by omega, hclock, hrandom⟩

namespace SharedSource

variable {s : SharedSource} {seed : UInt32}

/-! ### What every step keeps -/

/-- The counter tells how many draws are over, and each of these has the identifier of what it read and of the counter
at its place. -/
structure Counted (seed : UInt32) (s : SharedSource) : Prop where
  counter : s.counter = seed + UInt32.ofNat s.drawn.length
  ids : ∀ i (hi : i < s.drawn.length), s.drawn[i].id = s.drawn[i].moment.ident (seed + UInt32.ofNat i)

private theorem Counted.take (h : s.Counted seed) (n : Nat) (moment : Moment) :
    Counted seed { counter := s.counter + 1, underWay := s.underWay.eraseIdx n
                   drawn := s.drawn ++ [⟨moment, moment.ident s.counter⟩] } where
  counter := by
    rw [List.length_append, List.length_singleton, UInt32.ofNat_add, ← UInt32.add_assoc, ← h.counter]
    rfl
  ids i hi := by
    by_cases hold : i < s.drawn.length
    · simp only [List.getElem_append_left hold]
      exact h.ids i hold
    · have hlast : i = s.drawn.length := by
        rw [List.length_append, List.length_singleton] at hi
        omega
      subst hlast
      simp only [List.getElem_concat_length]
      rw [h.counter]

private theorem Counted.step (h : s.Counted seed) (e : Event) : (s.step e).Counted seed := by
  cases e with
  | begin => exact ⟨h.counter, h.ids⟩
  | readClock n millis =>
    simp only [SharedSource.step]
    split
    · exact ⟨h.counter, h.ids⟩
    · exact h
  | getRandom n random =>
    simp only [SharedSource.step]
    split
    · exact ⟨h.counter, h.ids⟩
    · exact h
  | takeCounter n =>
    simp only [SharedSource.step]
    split
    · exact h.take n _
    · exact h

private theorem counted_run (seed : UInt32) (events : List Event) : ((fresh seed).run events).Counted seed := by
  have all : ∀ (events : List Event) (s : SharedSource), s.Counted seed → (s.run events).Counted seed := by
    intro events
    induction events with
    | nil => exact fun _ h => h
    | cons e events ih => exact fun s h => ih (s.step e) (h.step e)
  exact all events _ ⟨(UInt32.add_zero seed).symm, nofun⟩

/-- The identifiers are those of a single source that reads what the threads have read, in the order in which they took
the counter. -/
theorem Counted.ids_eq_take (h : s.Counted seed) :
    s.drawn.map (·.id) = (IdSource.mk seed s.moments 0).take s.drawn.length := by
  refine List.ext_getElem (by simp) fun i hi hi' => ?_
  rw [List.length_map] at hi
  have hmoment : s.moments i = s.drawn[i].moment := by
    rw [SharedSource.moments, List.getElem?_eq_getElem hi]
    rfl
  rw [List.getElem_map, h.ids i hi, IdSource.getElem_take, Nat.zero_add, ← hmoment]

private theorem Counted.toNat_stamp (h : s.Counted seed) {i : Nat} (hi : i < s.drawn.length) :
    s.drawn[i].id.stamp.toNat = (seed.toNat + i) % 2147483648 := by
  have hi' : i < ((IdSource.mk seed s.moments 0).take s.drawn.length).length := by simpa using hi
  have hid : s.drawn[i].id = ((IdSource.mk seed s.moments 0).take s.drawn.length)[i] := by
    simp only [← h.ids_eq_take, List.getElem_map]
  rw [hid]
  exact IdSource.toNat_stamp_getElem_take _ hi'

/-! ### What the threads get -/

/-- The identifiers that came of draws from one counter. -/
structure AreDrawn (drawn : List Drawn) : Prop where
  distinct : (drawn.map (·.id)).Nodup
  /-- The last four bytes have the top bit clear. -/
  topBit : ∀ d ∈ drawn, d.id.stamp.toNat < 2147483648
  /-- They go up by one from each draw to the one that takes the counter next. -/
  countUp : ∀ i (hi : i + 1 < drawn.length),
    drawn[i + 1].id.stamp.toNat = (drawn[i].id.stamp.toNat + 1) % 2147483648
  /-- The first six bytes are of the clock that the draw read. -/
  clock : ∀ d ∈ drawn, d.id.clock = d.moment.millis.toNat % 281474976710656
  /-- The next six bytes are of its random word. -/
  random : ∀ d ∈ drawn, d.id.random = d.moment.random.toNat % 281474976710656

/-- Whatever number the counter starts with and whatever the threads read, in any order of their steps, up to 2³¹
identifiers from one counter are distinct. -/
theorem draws_are_distinct (seed : UInt32) (events : List Event)
    (hn : ((fresh seed).run events).drawn.length ≤ 2147483648) : AreDrawn ((fresh seed).run events).drawn := by
  have h := counted_run seed events
  generalize (fresh seed).run events = s at *
  constructor
  · rw [h.ids_eq_take]
    exact IdSource.nodup_take hn _
  · intro d hd
    obtain ⟨i, hi, rfl⟩ := List.mem_iff_getElem.mp hd
    rw [h.toNat_stamp hi]
    omega
  · intro i hi
    rw [h.toNat_stamp hi, h.toNat_stamp (Nat.lt_of_succ_lt hi)]
    omega
  · intro d hd
    obtain ⟨i, hi, rfl⟩ := List.mem_iff_getElem.mp hd
    rw [h.ids i hi, Moment.clock_ident]
  · intro d hd
    obtain ⟨i, hi, rfl⟩ := List.mem_iff_getElem.mp hd
    rw [h.ids i hi, Moment.random_ident]

/-- Two threads read the same clock and get the same random word. The one that began later takes the counter first, and
the counter wraps between them. -/
def photoFinish : List Event :=
  [.begin, .begin, .readClock 0 1700000000000, .readClock 1 1700000000000, .getRandom 1 8, .getRandom 0 8,
    .takeCounter 1, .takeCounter 0]

/-- The identifiers differ although the counter has wrapped. -/
theorem photoFinish_draws_two : ((fresh 0xffffffff).run photoFinish).drawn.map (·.id.stamp) = [0x7fffffff, 0] ∧
    (((fresh 0xffffffff).run photoFinish).drawn.map (·.id)).Nodup :=
  ⟨by decide +kernel, (draws_are_distinct 0xffffffff photoFinish (by decide +kernel)).distinct⟩

end SharedSource

end LockService
