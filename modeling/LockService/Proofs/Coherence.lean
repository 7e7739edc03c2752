import LockService.Pending.Awaited
import LockService.Pending.Inbound
import LockService.Proofs.Switchboard

/-!
# The wheel and the tables agree

When operations on a switchboard are done in one go, a callback is in its slot exactly as long as its command stands on
the wheel at its own deadline, and exactly as long as it stands in its own table. In the course of an operation this
fails for the commands that have been popped off the wheel or taken out of a table and are not yet settled; `Coherent`
keeps a list of either, and every operation ends with both of them empty.
-/

namespace LockService

/-- The command that is pending, if it is one. -/
def Pending.entry? : Pending → Option EntryId
  | entry e => some e
  | waiter _ => none

namespace Switchboard

/-- A callback is in its slot exactly when its command is on the wheel or has just been popped off it, exactly when it
is in its table or has just been taken out of it, and exactly when it has not run. -/
structure Coherent (b : Switchboard) (popped taken : List EntryId) : Prop where
  sound : b.Sound
  onWheel : ∀ (e : EntryId) (x : Entry), b.entries[e]? = some x → x.armed = true →
    b.wheel.find? x.deadline x.requestId = some e ∨ e ∈ popped
  inTable : ∀ (e : EntryId) (x : Entry), b.entries[e]? = some x → x.armed = true →
    b.holder? x.table x.requestId = some (.entry e) ∨ e ∈ taken
  armedOnWheel : ∀ d i e, b.wheel.find? d i = some e → b.isArmed e = true ∧ e ∉ popped
  armedInTable : ∀ t i e, b.holder? t i = some (.entry e) → b.isArmed e = true ∧ e ∉ taken
  unrun : ∀ e, b.submissions e = [] ↔ b.entries[e]?.map (·.armed) ≠ some false

theorem coherent_empty : Coherent {} [] [] := by
  refine ⟨sound_empty, ?_, ?_, ?_, ?_, ?_⟩
  · intro e x h
    cases h
  · intro e x h
    cases h
  · intro d i e h
    cases h
  · intro t i e h
    have hn : ({} : Switchboard).holder? t i = none := rfl
    rw [hn] at h
    cases h
  · intro e
    simp [submissions]

section Settle

variable {b b' : Switchboard} {popped taken : List EntryId} {e : EntryId} {x : Entry}

private theorem isArmed_disarm (hx : b.entries[e]? = some x) (he : b'.entries = b.entries.set e x.disarmed)
    (e' : EntryId) : b'.isArmed e' = true ↔ b.isArmed e' = true ∧ e' ≠ e := by
  obtain ⟨hl, -⟩ := List.getElem?_eq_some_iff.mp hx
  by_cases h : e = e'
  · subst h
    simp [isArmed, he, hl, Entry.disarmed]
  · have hne : e' ≠ e := Ne.symm h
    simp [isArmed, he, h, hne]

theorem getElem?_set_disarmed (hx : b.entries[e]? = some x) :
    (b.entries.set e x.disarmed)[e]? = some x.disarmed := by
  obtain ⟨hl, -⟩ := List.getElem?_eq_some_iff.mp hx
  exact List.getElem?_set_self hl

private theorem isArmed_set_disarmed (hx : b.entries[e]? = some x) (he : b'.entries = b.entries.set e x.disarmed) :
    b'.isArmed e = false := by
  rw [isArmed, he, getElem?_set_disarmed hx]
  rfl

/-- A callback has been taken out of its slot and has run, and its command is off the wheel and out of its table. -/
private theorem Coherent.finish (h : Coherent b popped taken) (hx : b.entries[e]? = some x) (hs : b'.Sound)
    (he : b'.entries = b.entries.set e x.disarmed)
    (hw : ∀ d i e', b'.wheel.find? d i = some e' ↔ b.wheel.find? d i = some e' ∧ e' ≠ e)
    (ht : ∀ t i e', b'.holder? t i = some (.entry e') ↔ b.holder? t i = some (.entry e') ∧ e' ≠ e)
    (hd : ∀ e', b'.submissions e' = [] ↔ b.submissions e' = [] ∧ e' ≠ e) : Coherent b' popped taken where
  sound := hs
  onWheel e' x' hx' ha := by
    obtain ⟨hne, hx'⟩ := getElem?_of_armed_set (he ▸ hx') ha
    exact (h.onWheel e' x' hx' ha).imp_left fun hf => (hw _ _ _).mpr ⟨hf, Ne.symm hne⟩
  inTable e' x' hx' ha := by
    obtain ⟨hne, hx'⟩ := getElem?_of_armed_set (he ▸ hx') ha
    exact (h.inTable e' x' hx' ha).imp_left fun hf => (ht _ _ _).mpr ⟨hf, Ne.symm hne⟩
  armedOnWheel d i e' hf := by
    obtain ⟨hf, hne⟩ := (hw d i e').mp hf
    obtain ⟨ha, hp⟩ := h.armedOnWheel d i e' hf
    exact ⟨(isArmed_disarm hx he e').mpr ⟨ha, hne⟩, hp⟩
  armedInTable t i e' hf := by
    obtain ⟨hf, hne⟩ := (ht t i e').mp hf
    obtain ⟨ha, hp⟩ := h.armedInTable t i e' hf
    exact ⟨(isArmed_disarm hx he e').mpr ⟨ha, hne⟩, hp⟩
  unrun e' := by
    obtain ⟨hl, -⟩ := List.getElem?_eq_some_iff.mp hx
    rw [hd, h.unrun, he]
    by_cases hne : e = e'
    · subst hne
      simp [hl, Entry.disarmed]
    · simp [List.getElem?_set_ne hne, Ne.symm hne]

/-- A command whose callback is no longer in its slot need not be settled. -/
private theorem Coherent.skip_popped (h : Coherent b (e :: popped) taken) (ha : b.isArmed e = false) :
    Coherent b popped taken where
  sound := h.sound
  onWheel e' x' hx' ha' := by
    refine (h.onWheel e' x' hx' ha').imp_right fun hm => ?_
    rcases List.mem_cons.mp hm with rfl | hm
    · rw [isArmed_eq hx', ha'] at ha
      cases ha
    · exact hm
  inTable := h.inTable
  armedOnWheel d i e' hf := (h.armedOnWheel d i e' hf).imp_right fun hn hm => hn (List.mem_cons_of_mem _ hm)
  armedInTable := h.armedInTable
  unrun := h.unrun

private theorem Coherent.skip_taken (h : Coherent b popped (e :: taken)) (ha : b.isArmed e = false) :
    Coherent b popped taken where
  sound := h.sound
  onWheel := h.onWheel
  inTable e' x' hx' ha' := by
    refine (h.inTable e' x' hx' ha').imp_right fun hm => ?_
    rcases List.mem_cons.mp hm with rfl | hm
    · rw [isArmed_eq hx', ha'] at ha
      cases ha
    · exact hm
  armedOnWheel := h.armedOnWheel
  armedInTable t i e' hf := (h.armedInTable t i e' hf).imp_right fun hn hm => hn (List.mem_cons_of_mem _ hm)
  unrun := h.unrun

private theorem find?_remove_iff (h : b.Sound) (hx : b.entries[e]? = some x) (d : Nat) (i : Ident) (e' : EntryId) :
    (b.wheel.remove x.deadline x.requestId).find? d i = some e' ↔ b.wheel.find? d i = some e' ∧ e' ≠ e := by
  rw [Wheel.find?_remove h.tidy]
  constructor
  · intro hf
    split at hf
    · cases hf
    · rename_i hn
      refine ⟨hf, ?_⟩
      rintro rfl
      obtain ⟨x', hx', hd, hi⟩ := h.parked d i _ hf
      rw [hx] at hx'
      cases hx'
      exact hn ⟨hd.symm, hi.symm⟩
  · rintro ⟨hf, hne⟩
    obtain ⟨x', hx', -, hi⟩ := h.parked d i e' hf
    split
    · rename_i hd
      exact absurd (h.distinct e' e x' x hx' hx (hi.trans hd.2)) hne
    · exact hf

private theorem holder?_withdraw_iff (h : b.Sound) (hx : b.entries[e]? = some x) (t : TableId) (i : Ident)
    (e' : EntryId) : (b.withdraw e).holder? t i = some (.entry e') ↔ b.holder? t i = some (.entry e') ∧ e' ≠ e := by
  rw [holder?_withdraw h hx]
  constructor
  · intro hf
    split at hf
    · cases hf
    · rename_i hn
      refine ⟨hf, ?_⟩
      rintro rfl
      obtain ⟨x', hx', ht, hi⟩ := h.pending t i _ hf
      rw [hx] at hx'
      cases hx'
      exact hn ⟨ht.symm, hi.symm⟩
  · rintro ⟨hf, hne⟩
    obtain ⟨x', hx', -, hi⟩ := h.pending t i e' hf
    split
    · rename_i ht
      exact absurd (h.distinct e' e x' x hx' hx (hi.trans ht.2)) hne
    · exact hf

private theorem submissions_deliver_callback (b : Switchboard) (e : EntryId) (outcome : Outcome Reply) (e' : EntryId) :
    (b.deliver (.callback e outcome)).submissions e' = [] ↔ b.submissions e' = [] ∧ e' ≠ e := by
  rw [submissions_deliver]
  by_cases he : e = e'
  · simp [Delivery.submission?, he]
  · simp [Delivery.submission?, he, Ne.symm he]

/-- A command that has been taken out of its table is completed. -/
theorem Coherent.complete (h : Coherent b popped (e :: taken)) (outcome : Outcome Reply) :
    Coherent (b.settle (.complete e outcome)) popped taken := by
  by_cases ha : b.isArmed e = true
  · obtain ⟨x, hx, hxa⟩ := armed_of_isArmed ha
    let b₁ := { b with entries := b.entries.set e x.disarmed }
    have hx₁ : b₁.entries[e]? = some x.disarmed := getElem?_set_disarmed hx
    have hs : b.settle (.complete e outcome) = (b₁.unpark e).deliver (.callback e outcome) := by
      simp [settle, Task.advance, Task.step, takeCallback_of_armed hx hxa, b₁]
    have he : (b.settle (.complete e outcome)).entries = b.entries.set e x.disarmed := by
      rw [hs]
      exact entries_unpark b₁ e
    have hf : Coherent (b.settle (.complete e outcome)) popped (e :: taken) := by
      refine h.finish hx ?_ he ?_ ?_ ?_
      · rw [hs]
        exact ((h.sound.disarm hx).unpark e).deliver _
      · intro d i e'
        rw [hs, unpark_eq hx₁]
        exact find?_remove_iff h.sound hx d i e'
      · intro t i e'
        -- it was taken out of its table before
        rw [hs, unpark_eq hx₁]
        refine ⟨fun ht => ⟨ht, ?_⟩, fun ht => ht.1⟩
        rintro rfl
        exact (h.armedInTable t i _ ht).2 List.mem_cons_self
      · intro e'
        rw [hs, submissions_deliver_callback, submissions_unpark]
        rfl
    exact hf.skip_taken (isArmed_set_disarmed hx he)
  · have hn : b.isArmed e = false := by simpa using ha
    have hs : b.settle (.complete e outcome) = b := by
      simp [settle, Task.advance, Task.step, takeCallback_of_not_armed hn]
    rw [hs]
    exact h.skip_taken hn

/-- A command that has been popped off the wheel is failed. -/
theorem Coherent.expire (h : Coherent b (e :: popped) taken) : Coherent (b.settle (.expire e)) popped taken := by
  by_cases ha : b.isArmed e = true
  · obtain ⟨x, hx, hxa⟩ := armed_of_isArmed ha
    let b₁ := { b with entries := b.entries.set e x.disarmed }
    have hx₁ : b₁.entries[e]? = some x.disarmed := getElem?_set_disarmed hx
    have hs : b.settle (.expire e) = (b₁.withdraw e).deliver (.callback e (.error (.timeout x.wait))) := by
      simp [settle, Task.advance, Task.step, takeCallback_of_armed hx hxa, b₁]
    have he : (b.settle (.expire e)).entries = b.entries.set e x.disarmed := by
      rw [hs]
      exact entries_withdraw b₁ e
    have hf : Coherent (b.settle (.expire e)) (e :: popped) taken := by
      refine h.finish hx ?_ he ?_ ?_ ?_
      · rw [hs]
        exact ((h.sound.disarm hx).withdraw e).deliver _
      · intro d i e'
        have hw : (b.settle (.expire e)).wheel = b.wheel := by
          rw [hs]
          exact wheel_withdraw b₁ e
        -- it was popped off the wheel before
        rw [hw]
        refine ⟨fun ht => ⟨ht, ?_⟩, fun ht => ht.1⟩
        rintro rfl
        exact (h.armedOnWheel d i _ ht).2 List.mem_cons_self
      · intro t i e'
        rw [hs]
        exact holder?_withdraw_iff (h.sound.disarm hx) hx₁ t i e'
      · intro e'
        rw [hs, submissions_deliver_callback, submissions_withdraw]
        rfl
    exact hf.skip_popped (isArmed_set_disarmed hx he)
  · have hn : b.isArmed e = false := by simpa using ha
    have hs : b.settle (.expire e) = b := by
      simp [settle, Task.advance, Task.step, takeCallback_of_not_armed hn]
    rw [hs]
    exact h.skip_popped hn

/-- Whatever leaves callbacks, the wheel and the commands in the tables alone. -/
theorem Coherent.frame (h : Coherent b popped taken) (hs : b'.Sound) (he : b'.entries = b.entries)
    (hw : b'.wheel = b.wheel)
    (ht : ∀ t i (e : EntryId), b'.holder? t i = some (.entry e) ↔ b.holder? t i = some (.entry e))
    (hd : ∀ e, b'.submissions e = b.submissions e) : Coherent b' popped taken where
  sound := hs
  onWheel e x hx ha := by
    rw [he] at hx
    rw [hw]
    exact h.onWheel e x hx ha
  inTable e x hx ha := by
    rw [he] at hx
    rw [ht]
    exact h.inTable e x hx ha
  armedOnWheel d i e hf := by
    rw [hw] at hf
    rw [isArmed, he]
    exact h.armedOnWheel d i e hf
  armedInTable t i e hf := by
    rw [ht] at hf
    rw [isArmed, he]
    exact h.armedInTable t i e hf
  unrun e := by
    rw [hd, he]
    exact h.unrun e

private theorem Coherent.deliver (h : Coherent b popped taken) (d : Delivery) (hd : ∀ e, d.submission? e = none) :
    Coherent (b.deliver d) popped taken := by
  refine h.frame (h.sound.deliver d) rfl rfl (fun _ _ _ => Iff.rfl) fun e => ?_
  rw [submissions_deliver, hd e]
  simp

private theorem Coherent.abandon (h : Coherent b popped taken) (p : Pending) : Coherent (b.abandon p) popped taken := by
  cases p with
  | waiter w => exact h.deliver _ fun _ => rfl
  | entry e => exact h

theorem Coherent.newTable (h : Coherent b popped taken) : Coherent b.newTable.2 popped taken :=
  h.frame h.sound.newTable rfl rfl (fun _ _ _ => by simp [holder?]) fun _ => rfl

end Settle

/-! ### Every operation ends in agreement -/

section Operations

variable {b : Switchboard}

/-- A command taken out of its table is one that has yet to be completed. -/
theorem Coherent.take (h : Coherent b [] []) (t : TableId) (id : Ident) :
    Coherent (b.take t id).2 [] ((b.holder? t id).bind Pending.entry?).toList where
  sound := h.sound.take t id
  onWheel := h.onWheel
  inTable e x hx ha := by
    have hh : b.holder? x.table x.requestId = some (.entry e) := by simpa using h.inTable e x hx ha
    rw [holder?_take]
    split
    · rename_i hx'
      right
      rw [← hx'.1, ← hx'.2, hh]
      simp [Pending.entry?]
    · exact .inl hh
  armedOnWheel := h.armedOnWheel
  armedInTable t' i e hf := by
    rw [holder?_take] at hf
    split at hf
    · cases hf
    · rename_i hn
      refine ⟨(h.armedInTable t' i e hf).1, fun hm => hn ?_⟩
      obtain ⟨p, hp, he⟩ := Option.bind_eq_some_iff.mp (Option.mem_toList.mp hm)
      cases p with
      | waiter w => cases he
      | entry e' =>
        cases he
        -- a command has one place in one table, so it cannot stand anywhere else
        obtain ⟨x, hx, ht, hi⟩ := h.sound.pending t id _ hp
        obtain ⟨x', hx', ht', hi'⟩ := h.sound.pending t' i _ hf
        rw [hx] at hx'
        cases hx'
        exact ⟨ht'.symm.trans ht, hi'.symm.trans hi⟩
  unrun := h.unrun

/-- Resolving what was taken out of a table puts the books in order. -/
theorem Coherent.resolve {p : Pending} {taken : List EntryId} (h : Coherent b [] (p.entry?.toList ++ taken))
    (outcome : Outcome Reply) : Coherent (b.resolve outcome p) [] taken := by
  cases p with
  | waiter w => exact h.deliver _ fun _ => rfl
  | entry e => exact Coherent.complete h outcome

/-- A reply leaves the books in order: it takes out one request and completes it, or finds none. -/
theorem Coherent.receive (h : Coherent b [] []) (t : TableId) (reply : Reply) :
    Coherent (b.receive t reply).2 [] [] := by
  have ht := h.take t reply.requestId
  rw [← fst_take] at ht
  unfold Switchboard.receive
  split
  · rename_i p b' hp
    rw [hp] at ht
    exact Coherent.resolve (by simpa using ht) _
  · rename_i b' hp
    rw [hp] at ht
    exact ht

private theorem Coherent.drain (h : Coherent b [] []) (t : TableId) :
    Coherent (b.drain t).2 [] ((b.drain t).1.filterMap Pending.entry?) := by
  have mem : ∀ e, e ∈ (b.drain t).1.filterMap Pending.entry? ↔ ∃ i, b.holder? t i = some (.entry e) := by
    intro e
    rw [List.mem_filterMap]
    constructor
    · rintro ⟨p, hp, he⟩
      cases p with
      | waiter w => cases he
      | entry e' =>
        cases he
        exact (mem_drain_iff (h.sound.orderly t)).mp hp
    · intro hi
      exact ⟨.entry e, (mem_drain_iff (h.sound.orderly t)).mpr hi, rfl⟩
  refine ⟨h.sound.drain t, h.onWheel, ?_, h.armedOnWheel, ?_, h.unrun⟩
  · intro e x hx ha
    have hh : b.holder? x.table x.requestId = some (.entry e) := by simpa using h.inTable e x hx ha
    rw [holder?_drain, mem]
    split
    · rename_i ht
      exact .inr ⟨x.requestId, ht ▸ hh⟩
    · exact .inl hh
  · intro t' i e hf
    rw [holder?_drain] at hf
    split at hf
    · cases hf
    · rename_i hn
      rw [mem]
      refine ⟨(h.armedInTable t' i e hf).1, ?_⟩
      rintro ⟨j, hj⟩
      obtain ⟨x, hx, ht, -⟩ := h.sound.pending t j e hj
      obtain ⟨x', hx', ht', -⟩ := h.sound.pending t' i e hf
      rw [hx] at hx'
      cases hx'
      exact hn (ht'.symm.trans ht)

private theorem Coherent.resolveAll (outcome : Outcome Reply) (pending : List Pending) :
    ∀ b : Switchboard, Coherent b [] (pending.filterMap Pending.entry?) →
      Coherent (pending.foldl (fun b p => b.resolve outcome p) b) [] [] := by
  induction pending with
  | nil => exact fun b h => h
  | cons p rest ih =>
    intro b h
    have hp : (p :: rest).filterMap Pending.entry? = p.entry?.toList ++ rest.filterMap Pending.entry? := by
      cases p <;> rfl
    rw [hp] at h
    exact ih _ (h.resolve outcome)

/-- Draining a table leaves the books in order: all that is taken out is completed. -/
theorem Coherent.drainWith (h : Coherent b [] []) (t : TableId) (outcome : Outcome Reply) :
    Coherent (b.drainWith t outcome).2 [] [] :=
  Coherent.resolveAll outcome _ _ (h.drain t)

/-- What is due is popped off the wheel in one go and has yet to be failed. -/
theorem Coherent.later (h : Coherent b [] []) (second : Nat) :
    Coherent { b with wheel := b.wheel.later second } (b.wheel.due second) [] where
  sound := h.sound.later second
  onWheel e x hx ha := by
    have hf : b.wheel.find? x.deadline x.requestId = some e := by simpa using h.onWheel e x hx ha
    rw [Wheel.find?_later h.sound.tidy, Wheel.mem_due_iff h.sound.tidy]
    split
    · rename_i hd
      exact .inr ⟨x.deadline, x.requestId, hd, hf⟩
    · exact .inl hf
  inTable := h.inTable
  armedOnWheel d i e hf := by
    rw [Wheel.find?_later h.sound.tidy] at hf
    split at hf
    · cases hf
    · rename_i hn
      rw [Wheel.mem_due_iff h.sound.tidy]
      refine ⟨(h.armedOnWheel d i e hf).1, ?_⟩
      rintro ⟨s, j, hs, hj⟩
      obtain ⟨x, hx, hd, -⟩ := h.sound.parked s j e hj
      obtain ⟨x', hx', hd', -⟩ := h.sound.parked d i e hf
      rw [hx] at hx'
      cases hx'
      omega
  armedInTable := h.armedInTable
  unrun := h.unrun

private theorem Coherent.expireAll (es : List EntryId) :
    ∀ b : Switchboard, Coherent b es [] → Coherent (b.expireAll es).2 [] [] := by
  induction es with
  | nil => exact fun b h => h
  | cons e rest ih => exact fun b h => ih _ h.expire

/-- Failing what is due leaves the books in order: all that was popped off is failed. -/
theorem Coherent.expireDue (h : Coherent b [] []) (second : Nat) : Coherent (b.expireDue second).2 [] [] :=
  Coherent.expireAll _ _ (h.later second)

/-- No command stands in a table under an identifier that no command has. -/
private theorem Sound.holder?_ne_entry (h : b.Sound) {id : Ident} (hid : id ∉ b.requestIds) (t : TableId)
    (e : EntryId) : b.holder? t id ≠ some (.entry e) := by
  intro hp
  obtain ⟨x, hx, -, rfl⟩ := h.pending t id e hp
  exact hid (List.mem_map_of_mem (List.mem_of_getElem? hx))

/-- A caller whose time is up leaves its table, and the books stay in order. -/
theorem Coherent.timeOut (h : Coherent b [] []) (a : Awaited) (hid : a.requestId ∉ b.requestIds) :
    Coherent (b.timeOut a) [] [] := by
  have ht := h.take a.table a.requestId
  -- what is found there is a waiter or nothing, since no command has the identifier
  have hn : (b.holder? a.table a.requestId).bind Pending.entry? = none := by
    cases hp : b.holder? a.table a.requestId with
    | none => rfl
    | some p =>
      cases p with
      | waiter w => rfl
      | entry e => exact absurd hp (h.sound.holder?_ne_entry hid _ e)
  rw [hn] at ht
  refine Coherent.deliver ?_ _ fun _ => rfl
  split
  · rename_i hp
    rw [hp] at ht
    split
    · exact ht
    · exact ht.abandon _
  · rename_i hp
    rwa [hp] at ht

/-- A caller that waits under an identifier of its own displaces nothing and leaves the books in order. -/
theorem Coherent.await (h : Coherent b [] []) {t : TableId} (ht : t < b.tables.length) {id : Ident}
    (hid : id ∉ b.requestIds) (bound : Span) : Coherent (b.await t id bound).2 [] [] := by
  have hw : Coherent b.newWaiter.2 [] [] :=
    h.frame (h.sound.of_le h.sound.tidy h.sound.orderly (Nat.le_refl _) (fun _ => rfl) (fun _ _ _ hf => hf)
      fun _ _ _ hf => hf) rfl rfl (fun _ _ _ => Iff.rfl) fun _ => rfl
  have ht : t < b.newWaiter.2.tables.length := ht
  have hr : Coherent (b.newWaiter.2.register t id (.waiter b.waiters)).2 [] [] := by
    refine hw.frame (hw.sound.registerWaiter ht id _) (by simp) (by simp) ?_ (by simp)
    intro t' i e
    by_cases hc : (b.newWaiter.2.table t).closed = true
    · rw [register_of_closed hc]
    · rw [holder?_register ht (by simpa using hc)]
      split
      · rename_i hi
        rw [hi.2]
        exact ⟨fun hf => by simp at hf, fun hf => absurd hf (hw.sound.holder?_ne_entry hid _ e)⟩
      · exact Iff.rfl
  simp only [Switchboard.await]
  simp only [newWaiter] at hr ⊢
  split
  · rename_i hp
    rwa [hp] at hr
  · rename_i hp
    rwa [hp] at hr

private theorem Coherent.defer (h : Coherent b [] []) {now : Nat} {id : Ident} {wait : Span} {t : TableId}
    (ht : t < b.tables.length) (hid : id ∉ b.requestIds) :
    Coherent (b.defer now id wait t).2 [] [b.entries.length] := by
  have hne : ∀ x ∈ b.entries, x.requestId ≠ id := fun x hx he => hid (he ▸ List.mem_map_of_mem hx)
  have isOld : ∀ {e}, b.isArmed e = true → (b.defer now id wait t).2.isArmed e = true ∧ e ≠ b.entries.length := by
    intro e ha
    obtain ⟨x, hx, ha⟩ := armed_of_isArmed ha
    have hl := (List.getElem?_eq_some_iff.mp hx).1
    refine ⟨?_, Nat.ne_of_lt hl⟩
    rw [isArmed, entries_defer, List.getElem?_append_left hl, hx]
    exact ha
  refine ⟨h.sound.defer ht hne, ?_, ?_, ?_, ?_, ?_⟩
  · intro e x hx ha
    rw [wheel_defer, Wheel.find?_insert h.sound.tidy]
    rcases getElem?_defer hx with hx | ⟨rfl, rfl⟩
    · rw [if_neg fun hd => hne x (List.mem_of_getElem? hx) hd.2]
      exact h.onWheel e x hx ha
    · simp
  · intro e x hx ha
    rcases getElem?_defer hx with hx | ⟨rfl, rfl⟩
    · left
      show b.holder? x.table x.requestId = some (.entry e)
      simpa using h.inTable e x hx ha
    · exact .inr List.mem_cons_self
  · intro d i e hf
    rw [wheel_defer, Wheel.find?_insert h.sound.tidy] at hf
    split at hf
    · cases hf
      simp [isArmed]
    · exact ⟨(isOld (h.armedOnWheel d i e hf).1).1, by simp⟩
  · intro t' i e hf
    have ha := isOld (h.armedInTable t' i e hf).1
    exact ⟨ha.1, by simpa using ha.2⟩
  · intro e
    show b.submissions e = [] ↔ _
    rw [h.unrun e, entries_defer, List.getElem?_append]
    split
    · exact Iff.rfl
    · rename_i hl
      rw [List.getElem?_eq_none (Nat.le_of_not_lt hl)]
      rcases e - b.entries.length with _ | k <;> simp

private theorem Coherent.register {e : EntryId} {x : Entry} (h : Coherent b [] [e]) (hx : b.entries[e]? = some x)
    (ha : x.armed = true) (hc : (b.table x.table).closed = false) :
    Coherent (b.register x.table x.requestId (.entry e)).2 [] [] := by
  refine ⟨h.sound.register hx, by simpa using h.onWheel, ?_, by simpa [isArmed] using h.armedOnWheel, ?_,
    by simpa using h.unrun⟩
  · intro e' x' hx' ha'
    rw [entries_register] at hx'
    rw [holder?_register (h.sound.placed e x hx) hc]
    left
    by_cases he : e' = e
    · subst he
      rw [hx] at hx'
      cases hx'
      simp
    · rw [if_neg fun hd => he (h.sound.distinct e' e x' x hx' hx hd.2)]
      simpa [he] using h.inTable e' x' hx' ha'
  · intro t i e' hf
    rw [holder?_register (h.sound.placed e x hx) hc] at hf
    rw [isArmed, entries_register]
    split at hf
    · cases hf
      exact ⟨(isArmed_eq hx).trans ha, by simp⟩
    · exact ⟨(h.armedInTable t i e' hf).1, by simp⟩

/-- A command deferred under an identifier of its own displaces nothing and leaves the books in order. -/
theorem Coherent.deferRegistered (h : Coherent b [] []) {now : Nat} {id : Ident} {wait : Span} {t : TableId}
    (ht : t < b.tables.length) (hid : id ∉ b.requestIds) :
    Coherent (b.deferRegistered now id wait t).2.2 [] [] := by
  have hd : Coherent (b.defer now id wait t).2 [] [(b.defer now id wait t).1] := h.defer ht hid
  have hx : (b.defer now id wait t).2.entries[(b.defer now id wait t).1]? =
      some ⟨id, Wheel.deadline now wait, wait, t, true⟩ := by
    rw [entries_defer]
    exact List.getElem?_concat_length
  simp only [Switchboard.deferRegistered]
  -- the command waits to be entered; a closed table refuses it, and it is failed at once
  by_cases hc : ((b.defer now id wait t).2.table t).closed = true
  · rw [register_of_closed hc]
    exact hd.complete _
  · have hc : ((b.defer now id wait t).2.table t).closed = false := by simpa using hc
    have hr := hd.register hx rfl hc
    have hf := fst_register (b.defer now id wait t).2 t id (.entry (b.defer now id wait t).1)
    rw [hc] at hf
    split
    · rename_i hp
      rwa [hp] at hr
    · rename_i hp
      rw [hp] at hf
      cases hf

/-! ### What agreement says -/

/-- A callback is in its slot exactly when it has not run. -/
theorem Coherent.armed_iff (h : Coherent b [] []) {e : EntryId} {x : Entry} (hx : b.entries[e]? = some x) :
    x.armed = true ↔ b.submissions e = [] := by
  rw [h.unrun e, hx]
  cases ha : x.armed <;> simp [ha]

/-- A callback is in its slot exactly when its command is on the wheel, at its own place. -/
theorem Coherent.armed_iff_find? (h : Coherent b [] []) {e : EntryId} {x : Entry} (hx : b.entries[e]? = some x) :
    x.armed = true ↔ b.wheel.find? x.deadline x.requestId = some e := by
  constructor
  · intro ha
    simpa using h.onWheel e x hx ha
  · intro hf
    rw [← isArmed_eq hx]
    exact (h.armedOnWheel _ _ e hf).1

/-- A callback is in its slot exactly when its command is pending in its own table. -/
theorem Coherent.armed_iff_holder? (h : Coherent b [] []) {e : EntryId} {x : Entry} (hx : b.entries[e]? = some x) :
    x.armed = true ↔ b.holder? x.table x.requestId = some (.entry e) := by
  constructor
  · intro ha
    simpa using h.inTable e x hx ha
  · intro hf
    rw [← isArmed_eq hx]
    exact (h.armedInTable _ _ e hf).1

private theorem Coherent.mem_parked_iff (h : Coherent b [] []) (e : EntryId) :
    e ∈ b.wheel.parked ↔ e < b.entries.length ∧ b.submissions e = [] := by
  rw [Wheel.mem_parked_iff h.sound.tidy]
  constructor
  · rintro ⟨d, i, hf⟩
    obtain ⟨x, hx, ha⟩ := armed_of_isArmed (h.armedOnWheel d i e hf).1
    exact ⟨(List.getElem?_eq_some_iff.mp hx).1, (h.armed_iff hx).mp ha⟩
  · rintro ⟨hl, hs⟩
    have hx : b.entries[e]? = some b.entries[e] := List.getElem?_eq_getElem hl
    exact ⟨_, _, (h.armed_iff_find? hx).mp ((h.armed_iff hx).mpr hs)⟩

/-- The wheel holds as many commands as there are callbacks that have not run. -/
theorem Coherent.size_wheel (h : Coherent b [] []) :
    b.wheel.size = (List.range b.entries.length).countP fun e => (b.submissions e).isEmpty := by
  have hp : b.wheel.parked.Nodup := by
    refine Wheel.nodup_parked h.sound.tidy ?_
    intro s i s' i' e hf hf'
    obtain ⟨x, hx, rfl, rfl⟩ := h.sound.parked s i e hf
    obtain ⟨x', hx', rfl, rfl⟩ := h.sound.parked s' i' e hf'
    rw [hx] at hx'
    cases hx'
    exact ⟨rfl, rfl⟩
  have hr : ((List.range b.entries.length).filter fun e => (b.submissions e).isEmpty).Nodup :=
    List.nodup_range.filter _
  -- both lists hold every command once, and the same commands
  rw [Wheel.size_eq, List.countP_eq_length_filter]
  refine ((List.perm_ext_iff_of_nodup hp hr).mpr fun e => ?_).length_eq
  rw [h.mem_parked_iff, List.mem_filter, List.mem_range, List.isEmpty_iff]

end Operations

end Switchboard

end LockService
