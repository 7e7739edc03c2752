import LockService.Pending.Switchboard
import LockService.Proofs.Wheel

/-!
# What the steps on a switchboard do

A switchboard is sound when what stands on the wheel and in the tables are commands of its own, each under its own
deadline, table and identifier, and when no two commands share an identifier. `holder?` says who is pending in a table
under an identifier, `submissions` on which outcomes a callback has run. For every step the lemmas here tell what it
changes about these, and that soundness is kept.
-/

namespace LockService

/-- The command with its callback taken. -/
def Entry.disarmed (entry : Entry) : Entry := { entry with armed := false }

/-- The outcome on which a delivery runs the callback of a command. -/
def Delivery.submission? (e : EntryId) : Delivery → Option (Outcome Reply)
  | callback e' outcome => if e' = e then some outcome else none
  | _ => none

/-- The table exists, holds every identifier once, and is empty when it is closed. -/
structure PendingTable.Orderly (table : PendingTable) : Prop where
  alive : table.alive = true
  keyed : (table.entries.map (·.1)).Nodup
  empty : table.closed = true → table.entries = []

namespace Switchboard

/-- Who is pending in a table under an identifier. -/
def holder? (b : Switchboard) (t : TableId) (id : Ident) : Option Pending := Assoc.get? id (b.table t).entries

/-- The outcomes on which the callback of a command has run. -/
def submissions (b : Switchboard) (e : EntryId) : List (Outcome Reply) := b.delivered.filterMap (·.submission? e)

/-- The identifiers of all commands. -/
def requestIds (b : Switchboard) : List Ident := b.entries.map (·.requestId)

/-- Whether the callback of a command is still in its slot. -/
def isArmed (b : Switchboard) (e : EntryId) : Bool := (b.entries[e]?.map (·.armed)).getD false

/-- What stands on the wheel and in the tables are the commands of the switchboard, each in its own place. -/
structure Sound (b : Switchboard) : Prop where
  tidy : b.wheel.Tidy
  orderly : ∀ t, (b.table t).Orderly
  parked : ∀ d i (e : EntryId), b.wheel.find? d i = some e →
    ∃ x : Entry, b.entries[e]? = some x ∧ x.deadline = d ∧ x.requestId = i
  pending : ∀ t i (e : EntryId), b.holder? t i = some (.entry e) →
    ∃ x : Entry, b.entries[e]? = some x ∧ x.table = t ∧ x.requestId = i
  distinct : ∀ (e e' : EntryId) (x x' : Entry), b.entries[e]? = some x → b.entries[e']? = some x' →
    x.requestId = x'.requestId → e = e'
  placed : ∀ (e : EntryId) (x : Entry), b.entries[e]? = some x → x.table < b.tables.length

theorem sound_empty : ({} : Switchboard).Sound := by
  have holder : ∀ t i, ({} : Switchboard).holder? t i = none := fun _ _ => rfl
  refine ⟨Wheel.tidy_nil, fun t => ⟨rfl, List.nodup_nil, fun _ => rfl⟩, ?_, ?_, ?_, ?_⟩
  · intro d i e h
    cases h
  · intro t i e h
    rw [holder] at h
    cases h
  · intro e e' x x' h
    cases h
  · intro e x h
    cases h

theorem isArmed_eq {b : Switchboard} {e : EntryId} {x : Entry} (h : b.entries[e]? = some x) :
    b.isArmed e = x.armed := by
  simp [isArmed, h]

theorem armed_of_isArmed {b : Switchboard} {e : EntryId} (h : b.isArmed e = true) :
    ∃ x, b.entries[e]? = some x ∧ x.armed = true := by
  cases hx : b.entries[e]? with
  | none => simp [isArmed, hx] at h
  | some x => exact ⟨x, rfl, by rwa [isArmed_eq hx] at h⟩

/-! ### Tables -/

theorem table_setTable (b : Switchboard) (t : TableId) (table : PendingTable) (t' : TableId) :
    (b.setTable t table).table t' = if t' = t ∧ t < b.tables.length then table else b.table t' := by
  simp only [Switchboard.table, setTable, List.getD_eq_getElem?_getD, List.getElem?_set]
  by_cases ht : t = t'
  · subst ht
    by_cases hl : t < b.tables.length
    · simp [hl]
    · simp [hl]
  · simp [ht, Ne.symm ht]

@[simp] theorem table_newTable (b : Switchboard) (t : TableId) : b.newTable.2.table t = b.table t := by
  simp only [Switchboard.table, newTable, List.getD_eq_getElem?_getD, List.getElem?_append]
  split
  · rfl
  · rename_i h
    rw [List.getElem?_eq_none (Nat.le_of_not_lt h)]
    rcases t - b.tables.length with _ | k <;> rfl

/-- A table that does not exist is empty and open, like a new one. -/
theorem table_eq_of_length_le {b : Switchboard} {t : TableId} (h : b.tables.length ≤ t) : b.table t = {} := by
  rw [Switchboard.table, List.getD_eq_getElem?_getD, List.getElem?_eq_none h]
  rfl

/-- Taking out what stands under an identifier empties that place and no other. -/
theorem holder?_take (b : Switchboard) (t : TableId) (id : Ident) (t' : TableId) (i : Ident) :
    (b.take t id).2.holder? t' i = if t' = t ∧ i = id then none else b.holder? t' i := by
  simp only [holder?, take, table_setTable]
  by_cases ht : t' = t
  · subst ht
    by_cases hl : t' < b.tables.length
    · by_cases hi : i = id
      · subst hi
        simp [hl]
      · simp [hl, hi, Assoc.get?_erase_of_ne hi]
    · rw [table_eq_of_length_le (Nat.le_of_not_lt hl)]
      simp [hl, Assoc.get?]
  · simp [ht]

/-- Draining a table empties it and no other. -/
theorem holder?_drain (b : Switchboard) (t t' : TableId) (i : Ident) :
    (b.drain t).2.holder? t' i = if t' = t then none else b.holder? t' i := by
  simp only [holder?, drain, table_setTable]
  by_cases ht : t' = t
  · subst ht
    by_cases hl : t' < b.tables.length
    · simp [hl, Assoc.get?]
    · rw [table_eq_of_length_le (Nat.le_of_not_lt hl)]
      simp [hl, Assoc.get?]
  · simp [ht]

/-- Draining an orderly table gives out exactly what stood in it. -/
theorem mem_drain_iff {b : Switchboard} {t : TableId} (h : (b.table t).Orderly) {p : Pending} :
    p ∈ (b.drain t).1 ↔ ∃ i, b.holder? t i = some p := by
  simp only [drain, holder?, List.mem_map, Assoc.get?_eq_some_iff h.keyed, Prod.exists]
  constructor
  · rintro ⟨i, q, hm, rfl⟩
    exact ⟨i, hm⟩
  · rintro ⟨i, hm⟩
    exact ⟨i, p, hm, rfl⟩

@[simp] theorem fst_take (b : Switchboard) (t : TableId) (id : Ident) : (b.take t id).1 = b.holder? t id := rfl

/-- On an open table what is registered stands under its identifier, in place of what was there, and nothing else
moves. -/
theorem holder?_register {b : Switchboard} {t : TableId} (ht : t < b.tables.length)
    (hc : (b.table t).closed = false) (id : Ident) (p : Pending) (t' : TableId) (i : Ident) :
    (b.register t id p).2.holder? t' i = if t' = t ∧ i = id then some p else b.holder? t' i := by
  have key : (b.setTable t { b.table t with entries := Assoc.insert id p (b.table t).entries }).holder? t' i =
      if t' = t ∧ i = id then some p else b.holder? t' i := by
    simp only [holder?, table_setTable]
    by_cases he : t' = t
    · subst he
      by_cases hi : i = id
      · subst hi
        simp [ht]
      · simp [ht, hi, Assoc.get?_insert_of_ne hi]
    · simp [he]
  rw [← key]
  simp only [register, hc, Bool.false_eq_true, if_false]
  split
  · rename_i old _
    cases old <;> rfl
  · rfl

/-- A closed table takes nothing more. -/
theorem register_of_closed {b : Switchboard} {t : TableId} (hc : (b.table t).closed = true) (id : Ident)
    (p : Pending) : b.register t id p = (false, b) := by
  simp [register, hc]

/-- Registering succeeds exactly on an open table. -/
theorem fst_register (b : Switchboard) (t : TableId) (id : Ident) (p : Pending) :
    (b.register t id p).1 = !(b.table t).closed := by
  simp only [register]
  cases (b.table t).closed
  · simp only [Bool.false_eq_true, if_false]
    split <;> rfl
  · rfl

/-! ### What the steps leave alone -/

@[simp] theorem entries_abandon (b : Switchboard) (p : Pending) : (b.abandon p).entries = b.entries := by
  cases p <;> rfl

@[simp] theorem wheel_abandon (b : Switchboard) (p : Pending) : (b.abandon p).wheel = b.wheel := by
  cases p <;> rfl

@[simp] theorem tables_abandon (b : Switchboard) (p : Pending) : (b.abandon p).tables = b.tables := by
  cases p <;> rfl

/-- A delivery to a callback is one more submission to its command. -/
theorem submissions_deliver (b : Switchboard) (d : Delivery) (e : EntryId) :
    (b.deliver d).submissions e = b.submissions e ++ (d.submission? e).toList := by
  simp only [submissions, deliver, List.filterMap_append]
  cases h : d.submission? e <;> simp [h]

@[simp] theorem submissions_abandon (b : Switchboard) (p : Pending) (e : EntryId) :
    (b.abandon p).submissions e = b.submissions e := by
  cases p with
  | waiter w => simp [abandon, submissions_deliver, Delivery.submission?]
  | entry e' => rfl

private theorem register_cases (b : Switchboard) (t : TableId) (id : Ident) (p : Pending) :
    (b.register t id p).2 = b ∨ ∃ table, (b.register t id p).2 = b.setTable t table ∨
      ∃ old, (b.register t id p).2 = (b.setTable t table).abandon old := by
  simp only [register]
  split
  · exact .inl rfl
  · split
    · exact .inr ⟨_, .inr ⟨_, rfl⟩⟩
    · exact .inr ⟨_, .inl rfl⟩

@[simp] theorem entries_register (b : Switchboard) (t : TableId) (id : Ident) (p : Pending) :
    (b.register t id p).2.entries = b.entries := by
  rcases register_cases b t id p with h | ⟨_, h | ⟨_, h⟩⟩ <;> simp [h, setTable]

@[simp] theorem wheel_register (b : Switchboard) (t : TableId) (id : Ident) (p : Pending) :
    (b.register t id p).2.wheel = b.wheel := by
  rcases register_cases b t id p with h | ⟨_, h | ⟨_, h⟩⟩ <;> simp [h, setTable]

@[simp] theorem length_tables_register (b : Switchboard) (t : TableId) (id : Ident) (p : Pending) :
    (b.register t id p).2.tables.length = b.tables.length := by
  rcases register_cases b t id p with h | ⟨_, h | ⟨_, h⟩⟩ <;> simp [h, setTable]

theorem closed_register (b : Switchboard) (t : TableId) (id : Ident) (p : Pending) (t' : TableId) :
    ((b.register t id p).2.table t').closed = (b.table t').closed := by
  have hset : ((b.setTable t { b.table t with entries := Assoc.insert id p (b.table t).entries }).table t').closed =
      (b.table t').closed := by
    rw [table_setTable]
    split
    · rename_i h
      rw [h.1]
    · rfl
  simp only [register]
  split
  · rfl
  · split
    · rw [Switchboard.table, tables_abandon]
      exact hset
    · exact hset

@[simp] theorem submissions_register (b : Switchboard) (t : TableId) (id : Ident) (p : Pending) (e : EntryId) :
    (b.register t id p).2.submissions e = b.submissions e := by
  rcases register_cases b t id p with h | ⟨_, h | ⟨_, h⟩⟩ <;> simp [h, setTable, submissions]
  exact submissions_abandon _ _ e

/-! ### Callbacks -/

/-- The callback of an unfinished command is taken out of its slot. -/
theorem takeCallback_of_armed {b : Switchboard} {e : EntryId} {x : Entry} (he : b.entries[e]? = some x)
    (ha : x.armed = true) : b.takeCallback e = (some x, { b with entries := b.entries.set e x.disarmed }) := by
  simp [takeCallback, he, ha, Entry.disarmed]

/-- Of two threads that race for a callback the second finds its slot empty. -/
theorem takeCallback_of_not_armed {b : Switchboard} {e : EntryId} (h : b.isArmed e = false) :
    b.takeCallback e = (none, b) := by
  unfold takeCallback
  cases he : b.entries[e]? with
  | none => rfl
  | some x =>
    rw [isArmed_eq he] at h
    simp [h]

theorem requestIds_takeCallback (b : Switchboard) (e : EntryId) :
    (b.takeCallback e).2.requestIds = b.requestIds := by
  unfold takeCallback
  split
  · rename_i x hx
    split
    · obtain ⟨hl, rfl⟩ := List.getElem?_eq_some_iff.mp hx
      have hl' : e < (b.entries.map (·.requestId)).length := by simpa using hl
      have hm : b.entries[e].requestId = (b.entries.map (·.requestId))[e] := by simp
      show (b.entries.set e _).map (·.requestId) = b.entries.map (·.requestId)
      rw [List.map_set]
      dsimp only
      rw [hm, List.set_getElem_self]
    · rfl
  · rfl

@[simp] theorem entries_unpark (b : Switchboard) (e : EntryId) : (b.unpark e).entries = b.entries := by
  unfold Switchboard.unpark
  split <;> rfl

@[simp] theorem submissions_unpark (b : Switchboard) (e e' : EntryId) :
    (b.unpark e).submissions e' = b.submissions e' := by
  unfold Switchboard.unpark
  split <;> rfl

@[simp] theorem submissions_takeCallback (b : Switchboard) (e e' : EntryId) :
    (b.takeCallback e).2.submissions e' = b.submissions e' := by
  unfold takeCallback
  split
  · split <;> rfl
  · rfl

/-- A callback that is in its slot after another was taken was there before. -/
theorem getElem?_of_armed_set {entries : List Entry} {e e' : EntryId} {x x' : Entry}
    (hx : (entries.set e x.disarmed)[e']? = some x') (ha : x'.armed = true) : e ≠ e' ∧ entries[e']? = some x' := by
  by_cases he : e = e'
  · subst he
    rw [List.getElem?_set] at hx
    split at hx
    · split at hx
      · cases hx
        cases ha
      · cases hx
    · rename_i hne
      exact absurd rfl hne
  · exact ⟨he, by rwa [List.getElem?_set_ne he] at hx⟩

private theorem withdraw_eq {b : Switchboard} (h : b.Sound) {e : EntryId} {x : Entry} (he : b.entries[e]? = some x) :
    b.withdraw e = (b.take x.table x.requestId).2 ∨
      ∃ p, b.withdraw e = (b.take x.table x.requestId).2.abandon p := by
  have ha := (h.orderly x.table).alive
  simp only [withdraw, he, ha, if_true]
  cases hp : (b.take x.table x.requestId).1 with
  | none =>
    left
    rw [← Prod.eta (b.take x.table x.requestId), hp]
  | some p =>
    right
    refine ⟨p, ?_⟩
    rw [← Prod.eta (b.take x.table x.requestId), hp]

/-- A command that is withdrawn leaves its own place in its table, and nothing else moves. -/
theorem holder?_withdraw {b : Switchboard} (h : b.Sound) {e : EntryId} {x : Entry} (he : b.entries[e]? = some x)
    (t : TableId) (i : Ident) :
    (b.withdraw e).holder? t i = if t = x.table ∧ i = x.requestId then none else b.holder? t i := by
  rw [← holder?_take]
  rcases withdraw_eq h he with hw | ⟨p, hw⟩
  · rw [hw]
  · rw [hw, holder?, holder?, Switchboard.table, tables_abandon]
    rfl

private theorem withdraw_cases (b : Switchboard) (e : EntryId) :
    b.withdraw e = b ∨ ∃ t table, b.withdraw e = b.setTable t table ∨
      ∃ p, b.withdraw e = (b.setTable t table).abandon p := by
  simp only [Switchboard.withdraw, Switchboard.take]
  split
  · split
    · split
      · rename_i h
        obtain ⟨-, rfl⟩ := Prod.mk.inj h
        exact .inr ⟨_, _, .inr ⟨_, rfl⟩⟩
      · rename_i h
        obtain ⟨-, rfl⟩ := Prod.mk.inj h
        exact .inr ⟨_, _, .inl rfl⟩
    · exact .inl rfl
  · exact .inl rfl

@[simp] theorem entries_withdraw (b : Switchboard) (e : EntryId) : (b.withdraw e).entries = b.entries := by
  rcases withdraw_cases b e with h | ⟨_, _, h | ⟨_, h⟩⟩ <;> simp [h, setTable]

@[simp] theorem wheel_withdraw (b : Switchboard) (e : EntryId) : (b.withdraw e).wheel = b.wheel := by
  rcases withdraw_cases b e with h | ⟨_, _, h | ⟨_, h⟩⟩ <;> simp [h, setTable]

@[simp] theorem submissions_withdraw (b : Switchboard) (e e' : EntryId) :
    (b.withdraw e).submissions e' = b.submissions e' := by
  rcases withdraw_cases b e with h | ⟨_, _, h | ⟨_, h⟩⟩
  · rw [h]
  · rw [h]
    rfl
  · rw [h, submissions_abandon]
    rfl

theorem unpark_eq {b : Switchboard} {e : EntryId} {x : Entry} (he : b.entries[e]? = some x) :
    b.unpark e = { b with wheel := b.wheel.remove x.deadline x.requestId } := by
  simp [unpark, he]

/-! ### Soundness is kept -/

private theorem orderly_setTable {b : Switchboard} (h : ∀ t, (b.table t).Orderly) (table : PendingTable)
    (hx : table.Orderly) (t t' : TableId) : ((b.setTable t table).table t').Orderly := by
  rw [table_setTable]
  split
  · exact hx
  · exact h t'

theorem orderly_take {b : Switchboard} (h : ∀ t, (b.table t).Orderly) (t : TableId) (id : Ident) (t' : TableId) :
    ((b.take t id).2.table t').Orderly := by
  refine orderly_setTable h { b.table t with entries := Assoc.erase id (b.table t).entries }
    ⟨(h t).alive, Assoc.nodup_keys_erase (h t).keyed id, ?_⟩ t t'
  intro hc
  have he : (b.table t).entries = [] := (h t).empty hc
  simp [he, Assoc.erase]

theorem orderly_drain {b : Switchboard} (h : ∀ t, (b.table t).Orderly) (t t' : TableId) :
    ((b.drain t).2.table t').Orderly :=
  orderly_setTable h { b.table t with entries := [], closed := true }
    ⟨(h t).alive, List.nodup_nil, fun _ => rfl⟩ t t'

theorem orderly_register {b : Switchboard} (h : ∀ t, (b.table t).Orderly) (t : TableId) (id : Ident) (p : Pending)
    (t' : TableId) : ((b.register t id p).2.table t').Orderly := by
  by_cases hc : (b.table t).closed = true
  · rw [register_of_closed hc]
    exact h t'
  · let table := { b.table t with entries := Assoc.insert id p (b.table t).entries }
    have hs : ((b.setTable t table).table t').Orderly :=
      orderly_setTable h table ⟨(h t).alive, Assoc.nodup_keys_insert (h t).keyed id p, fun hx => absurd hx hc⟩ t t'
    simp only [register, if_neg hc]
    split
    · rename_i old _
      cases old <;> exact hs
    · exact hs

/-- Two lists of commands that differ only in which callbacks are taken. -/
private theorem entry_of_disarmed_eq {entries entries' : List Entry}
    (h : ∀ e : EntryId, (entries'[e]?).map Entry.disarmed = (entries[e]?).map Entry.disarmed) {e : EntryId} {x : Entry}
    (hx : entries[e]? = some x) : ∃ x', entries'[e]? = some x' ∧ x'.disarmed = x.disarmed := by
  have := h e
  rw [hx, Option.map_some, Option.map_eq_some_iff] at this
  exact this

/-- Whatever takes commands off the wheel, out of tables or out of their slots keeps a switchboard sound. -/
theorem Sound.of_le {b b' : Switchboard} (h : b.Sound) (hw : b'.wheel.Tidy) (ho : ∀ t, (b'.table t).Orderly)
    (hl : b.tables.length ≤ b'.tables.length)
    (he : ∀ e : EntryId, (b'.entries[e]?).map Entry.disarmed = (b.entries[e]?).map Entry.disarmed)
    (hf : ∀ d i e, b'.wheel.find? d i = some e → b.wheel.find? d i = some e)
    (hp : ∀ t i (e : EntryId), b'.holder? t i = some (.entry e) → b.holder? t i = some (.entry e)) : b'.Sound where
  tidy := hw
  orderly := ho
  parked d i e h' := by
    obtain ⟨x, hx, rfl, rfl⟩ := h.parked d i e (hf d i e h')
    obtain ⟨x', hx', hd⟩ := entry_of_disarmed_eq he hx
    exact ⟨x', hx', (congrArg Entry.deadline hd :), (congrArg Entry.requestId hd :)⟩
  pending t i e h' := by
    obtain ⟨x, hx, rfl, rfl⟩ := h.pending t i e (hp t i e h')
    obtain ⟨x', hx', hd⟩ := entry_of_disarmed_eq he hx
    exact ⟨x', hx', (congrArg Entry.table hd :), (congrArg Entry.requestId hd :)⟩
  distinct e e' x x' hx hx' hid := by
    -- back to the commands as they were before
    obtain ⟨y, hy, hd⟩ := entry_of_disarmed_eq (fun e => (he e).symm) hx
    obtain ⟨y', hy', hd'⟩ := entry_of_disarmed_eq (fun e => (he e).symm) hx'
    have hi : y.requestId = x.requestId := (congrArg Entry.requestId hd :)
    have hi' : y'.requestId = x'.requestId := (congrArg Entry.requestId hd' :)
    exact h.distinct e e' y y' hy hy' (hi.trans (hid.trans hi'.symm))
  placed e x hx := by
    obtain ⟨y, hy, hd⟩ := entry_of_disarmed_eq (fun e => (he e).symm) hx
    have ht : y.table = x.table := (congrArg Entry.table hd :)
    exact ht ▸ Nat.lt_of_lt_of_le (h.placed e y hy) hl

theorem Sound.newTable {b : Switchboard} (h : b.Sound) : b.newTable.2.Sound :=
  h.of_le h.tidy (by simpa using h.orderly) (by simp [Switchboard.newTable]) (fun _ => rfl) (fun _ _ _ => id)
    (by simp [holder?])

theorem Sound.take {b : Switchboard} (h : b.Sound) (t : TableId) (id : Ident) : (b.take t id).2.Sound := by
  refine h.of_le h.tidy (orderly_take h.orderly t id) (by simp [Switchboard.take, setTable]) (fun _ => rfl)
    (fun _ _ _ hf => hf) ?_
  intro t' i p hp
  rw [holder?_take] at hp
  split at hp
  · cases hp
  · exact hp

theorem Sound.drain {b : Switchboard} (h : b.Sound) (t : TableId) : (b.drain t).2.Sound := by
  refine h.of_le h.tidy (orderly_drain h.orderly t) (by simp [Switchboard.drain, setTable]) (fun _ => rfl)
    (fun _ _ _ => id) ?_
  intro t' i p hp
  rw [holder?_drain] at hp
  split at hp
  · cases hp
  · exact hp

theorem Sound.deliver {b : Switchboard} (h : b.Sound) (d : Delivery) : (b.deliver d).Sound :=
  ⟨h.tidy, h.orderly, h.parked, h.pending, h.distinct, h.placed⟩

private theorem Sound.abandon {b : Switchboard} (h : b.Sound) (p : Pending) : (b.abandon p).Sound := by
  cases p with
  | waiter w => exact h.deliver _
  | entry e => exact h

/-- What stays on the wheel when all that is due is taken away stays where it was. -/
theorem Sound.later {b : Switchboard} (h : b.Sound) (second : Nat) :
    { b with wheel := b.wheel.later second }.Sound := by
  refine h.of_le (h.tidy.later second) h.orderly (Nat.le_refl _) (fun _ => rfl) ?_ (fun _ _ _ => id)
  intro d i e hf
  rw [Wheel.find?_later h.tidy] at hf
  split at hf
  · cases hf
  · exact hf

theorem Sound.disarm {b : Switchboard} (h : b.Sound) {e : EntryId} {x : Entry} (hx : b.entries[e]? = some x) :
    { b with entries := b.entries.set e x.disarmed }.Sound := by
  refine h.of_le h.tidy h.orderly (Nat.le_refl _) ?_ (fun _ _ _ => id) (fun _ _ _ => id)
  intro e'
  rw [List.getElem?_set]
  by_cases he : e = e'
  · subst he
    obtain ⟨hl, rfl⟩ := List.getElem?_eq_some_iff.mp hx
    simp [hl, Entry.disarmed]
  · rw [if_neg he]

theorem Sound.unpark {b : Switchboard} (h : b.Sound) (e : EntryId) : (b.unpark e).Sound := by
  cases hx : b.entries[e]? with
  | none => simpa [Switchboard.unpark, hx] using h
  | some x =>
    rw [unpark_eq hx]
    refine h.of_le (h.tidy.remove _ _) h.orderly (Nat.le_refl _) (fun _ => rfl) ?_ (fun _ _ _ => id)
    intro d i e' hf
    rw [Wheel.find?_remove h.tidy] at hf
    split at hf
    · cases hf
    · exact hf

/-- Withdrawing a command from its table leaves the wheel alone. -/
theorem Sound.withdraw {b : Switchboard} (h : b.Sound) (e : EntryId) : (b.withdraw e).Sound := by
  cases hx : b.entries[e]? with
  | none => simpa [Switchboard.withdraw, hx] using h
  | some x =>
    rcases withdraw_eq h hx with hw | ⟨p, hw⟩
    · rw [hw]
      exact h.take _ _
    · rw [hw]
      exact (h.take _ _).abandon p

/-- A command registered in its own table under its own identifier stands in its place. -/
theorem Sound.register {b : Switchboard} (h : b.Sound) {e : EntryId} {x : Entry} (hx : b.entries[e]? = some x) :
    (b.register x.table x.requestId (.entry e)).2.Sound := by
  by_cases hc : (b.table x.table).closed = true
  · rw [register_of_closed hc]
    exact h
  · have ho : (b.table x.table).closed = false := by simpa using hc
    refine ⟨by simpa using h.tidy, orderly_register h.orderly _ _ _, by simpa using h.parked, ?_,
      by simpa using h.distinct, by simpa using h.placed⟩
    intro t i e' hp
    rw [entries_register]
    rw [holder?_register (h.placed e x hx) ho] at hp
    split at hp
    · rename_i hti
      cases hp
      exact ⟨x, hx, hti.1.symm, hti.2.symm⟩
    · exact h.pending t i e' hp

/-- A caller who waits under an identifier is no command. -/
theorem Sound.registerWaiter {b : Switchboard} (h : b.Sound) {t : TableId} (ht : t < b.tables.length) (id : Ident)
    (w : WaiterId) : (b.register t id (.waiter w)).2.Sound := by
  refine h.of_le (by simpa using h.tidy) (orderly_register h.orderly _ _ _) (by simp) (by simp) (by simp) ?_
  intro t' i e hp
  by_cases hc : (b.table t).closed = true
  · rwa [register_of_closed hc] at hp
  · rw [holder?_register ht (by simpa using hc)] at hp
    split at hp
    · cases hp
    · exact hp

@[simp] theorem wheel_defer (b : Switchboard) (now : Nat) (id : Ident) (wait : Span) (t : TableId) :
    (b.defer now id wait t).2.wheel = b.wheel.insert (Wheel.deadline now wait) id b.entries.length := rfl

@[simp] theorem entries_defer (b : Switchboard) (now : Nat) (id : Ident) (wait : Span) (t : TableId) :
    (b.defer now id wait t).2.entries = b.entries ++ [⟨id, Wheel.deadline now wait, wait, t, true⟩] := rfl

/-- Deferring a command adds one entry, with its deadline counted from now, and changes none. -/
theorem getElem?_defer {b : Switchboard} {now : Nat} {id : Ident} {wait : Span} {t : TableId} {e : EntryId}
    {x : Entry} (h : (b.defer now id wait t).2.entries[e]? = some x) :
    b.entries[e]? = some x ∨ (e = b.entries.length ∧ x = ⟨id, Wheel.deadline now wait, wait, t, true⟩) := by
  rw [entries_defer, List.getElem?_append] at h
  split at h
  · exact .inl h
  · rename_i hn
    obtain ⟨hl, rfl⟩ := List.getElem?_eq_some_iff.mp h
    have he : e = b.entries.length := by
      have : e - b.entries.length < 1 := hl
      exact Nat.le_antisymm (Nat.le_of_sub_eq_zero (Nat.lt_one_iff.mp this)) (Nat.le_of_not_lt hn)
    exact .inr ⟨he, by simp⟩

theorem getElem?_eq_none_of_defer {b : Switchboard} {now : Nat} {id : Ident} {wait : Span} {t : TableId}
    {e : EntryId} (h : (b.defer now id wait t).2.entries[e]? = none) : b.entries[e]? = none := by
  rw [entries_defer, List.getElem?_eq_none_iff, List.length_append] at h
  exact List.getElem?_eq_none (Nat.le_trans (Nat.le_add_right _ _) h)

/-- Parking a command under an identifier that no other command has. -/
theorem Sound.defer {b : Switchboard} (h : b.Sound) {now : Nat} {id : Ident} {wait : Span} {t : TableId}
    (ht : t < b.tables.length) (hid : ∀ x ∈ b.entries, x.requestId ≠ id) : (b.defer now id wait t).2.Sound := by
  have old : ∀ {e : EntryId} {x : Entry}, b.entries[e]? = some x →
      (b.defer now id wait t).2.entries[e]? = some x := by
    intro e x hx
    rw [entries_defer, List.getElem?_append_left (List.getElem?_eq_some_iff.mp hx).1, hx]
  refine ⟨h.tidy.insert _ _ _, h.orderly, ?_, ?_, ?_, ?_⟩
  · intro d i e hf
    rw [wheel_defer, Wheel.find?_insert h.tidy] at hf
    split at hf
    · rename_i hd
      cases hf
      exact ⟨⟨id, Wheel.deadline now wait, wait, t, true⟩, by simp, hd.1.symm, hd.2.symm⟩
    · obtain ⟨x, hx, hd⟩ := h.parked d i e hf
      exact ⟨x, old hx, hd⟩
  · intro t' i e hp
    obtain ⟨x, hx, hd⟩ := h.pending t' i e hp
    exact ⟨x, old hx, hd⟩
  · intro e e' x x' hx hx' heq
    rcases getElem?_defer hx with hx | ⟨rfl, rfl⟩ <;> rcases getElem?_defer hx' with hx' | ⟨rfl, rfl⟩
    · exact h.distinct e e' x x' hx hx' heq
    · exact absurd heq (hid x (List.mem_of_getElem? hx))
    · exact absurd heq.symm (hid x' (List.mem_of_getElem? hx'))
    · rfl
  · intro e x hx
    rcases getElem?_defer hx with hx | ⟨-, rfl⟩
    · exact h.placed e x hx
    · exact ht

/-- An open table takes a command that is posted for it. -/
theorem deferRegistered_of_open {b : Switchboard} {t : TableId} (hc : (b.table t).closed = false) (now : Nat)
    (id : Ident) (wait : Span) : b.deferRegistered now id wait t = (b.entries.length, true,
      ((b.defer now id wait t).2.register t id (.entry b.entries.length)).2) := by
  have hfst := fst_register (b.defer now id wait t).2 t id (.entry b.entries.length)
  rw [show ((b.defer now id wait t).2.table t).closed = false from hc] at hfst
  rcases hr : (b.defer now id wait t).2.register t id (.entry b.entries.length) with ⟨taken, b'⟩
  rw [hr] at hfst
  cases hfst
  simp only [defer] at hr
  simp only [deferRegistered, defer, hr]

end Switchboard

end LockService
