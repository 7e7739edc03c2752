import LockService.Pending.Awaited
import LockService.Pending.Inbound
import LockService.Proofs.Switchboard

/-!
# What lasts on a switchboard

Whatever is done on a switchboard, its commands stay what they are, no others come than those that are deferred, and
a closed table stays closed.
-/

namespace LockService.Switchboard

/-- Commands stay what they are, no others come than under the given identifiers, and closed tables stay closed. -/
structure Lasts (ids : List Ident) (b b' : Switchboard) : Prop where
  kept : ∀ (e : EntryId) (x : Entry), b.entries[e]? = some x →
    ∃ x', b'.entries[e]? = some x' ∧ x'.disarmed = x.disarmed
  known : ∀ id ∈ b'.requestIds, id ∈ b.requestIds ∨ id ∈ ids
  closed : ∀ t, (b.table t).closed = true → (b'.table t).closed = true
  tables : b.tables.length ≤ b'.tables.length

theorem Lasts.refl (b : Switchboard) : Lasts [] b b :=
  ⟨fun _ x hx => ⟨x, hx, rfl⟩, fun _ => .inl, fun _ => id, Nat.le_refl _⟩

theorem Lasts.append {ids ids' : List Ident} {b b' b'' : Switchboard} (h : Lasts ids b b') (h' : Lasts ids' b' b'') :
    Lasts (ids ++ ids') b b'' where
  kept e x hx := by
    obtain ⟨x', hx', hd⟩ := h.kept e x hx
    obtain ⟨x'', hx'', hd'⟩ := h'.kept e x' hx'
    exact ⟨x'', hx'', hd'.trans hd⟩
  known id hid := by
    rcases h'.known id hid with hid | hid
    · exact (h.known id hid).imp_right (List.mem_append_left _)
    · exact .inr (List.mem_append_right _ hid)
  closed t hc := h'.closed t (h.closed t hc)
  tables := Nat.le_trans h.tables h'.tables

theorem Lasts.trans {ids : List Ident} {b b' b'' : Switchboard} (h : Lasts ids b b') (h' : Lasts [] b' b'') :
    Lasts ids b b'' := by
  simpa using h.append h'

theorem Lasts.mono {ids ids' : List Ident} {b b' : Switchboard} (h : Lasts ids b b') (hs : ids ⊆ ids') :
    Lasts ids' b b' :=
  ⟨h.kept, fun id hid => (h.known id hid).imp_right (@hs id), h.closed, h.tables⟩

/-- No command is ever forgotten. -/
theorem Lasts.length_entries {ids : List Ident} {b b' : Switchboard} (h : Lasts ids b b') :
    b.entries.length ≤ b'.entries.length := by
  refine Nat.le_of_not_lt fun hlt => ?_
  obtain ⟨x, hx, -⟩ := h.kept _ _ (List.getElem?_eq_getElem hlt)
  exact absurd (List.getElem?_eq_some_iff.mp hx).1 (Nat.lt_irrefl _)

private theorem Lasts.of_entries_eq {b b' : Switchboard} (he : b'.entries = b.entries)
    (hc : ∀ t, (b.table t).closed = true → (b'.table t).closed = true) (hl : b.tables.length ≤ b'.tables.length) :
    Lasts [] b b' where
  kept e x hx := ⟨x, he ▸ hx, rfl⟩
  known id hid := .inl (by rwa [requestIds, he] at hid)
  closed := hc
  tables := hl

private theorem lasts_setTable (b : Switchboard) (t : TableId) (table : PendingTable)
    (hc : (b.table t).closed = true → table.closed = true) : Lasts [] b (b.setTable t table) := by
  refine .of_entries_eq rfl ?_ (by simp [setTable])
  intro t' ht'
  rw [table_setTable]
  split
  · rename_i h
    exact hc (h.1 ▸ ht')
  · exact ht'

theorem lasts_take (b : Switchboard) (t : TableId) (id : Ident) : Lasts [] b (b.take t id).2 :=
  lasts_setTable b t _ fun h => h

private theorem lasts_drain (b : Switchboard) (t : TableId) : Lasts [] b (b.drain t).2 :=
  lasts_setTable b t _ fun _ => rfl

private theorem lasts_deliver (b : Switchboard) (d : Delivery) : Lasts [] b (b.deliver d) :=
  .of_entries_eq rfl (fun _ => id) (Nat.le_refl _)

private theorem lasts_abandon (b : Switchboard) (p : Pending) : Lasts [] b (b.abandon p) := by
  cases p with
  | waiter w => exact lasts_deliver b _
  | entry e => exact .refl b

private theorem lasts_register (b : Switchboard) (t : TableId) (id : Ident) (p : Pending) :
    Lasts [] b (b.register t id p).2 := by
  have hset : Lasts [] b (b.setTable t { b.table t with entries := Assoc.insert id p (b.table t).entries }) :=
    lasts_setTable b t _ fun h => h
  unfold register
  dsimp only
  split
  · exact .refl b
  · split
    · exact hset.trans (lasts_abandon _ _)
    · exact hset

private theorem lasts_takeCallback (b : Switchboard) (e : EntryId) : Lasts [] b (b.takeCallback e).2 := by
  by_cases ha : b.isArmed e = true
  · obtain ⟨x, hx, ha⟩ := armed_of_isArmed ha
    refine ⟨?_, ?_, ?_, ?_⟩
    · intro e' x' hx'
      rw [takeCallback_of_armed hx ha]
      show ∃ x'', (b.entries.set e x.disarmed)[e']? = some x'' ∧ x''.disarmed = x'.disarmed
      by_cases he : e = e'
      · subst he
        rw [hx] at hx'
        cases hx'
        obtain ⟨hl, -⟩ := List.getElem?_eq_some_iff.mp hx
        exact ⟨x.disarmed, by simp [hl], rfl⟩
      · rw [List.getElem?_set_ne he]
        exact ⟨x', hx', rfl⟩
    · intro id hid
      rw [requestIds_takeCallback] at hid
      exact .inl hid
    · intro t hc
      rw [takeCallback_of_armed hx ha]
      exact hc
    · rw [takeCallback_of_armed hx ha]
  · rw [takeCallback_of_not_armed (by simpa using ha)]
    exact .refl b

private theorem lasts_unpark (b : Switchboard) (e : EntryId) : Lasts [] b (b.unpark e) := by
  unfold Switchboard.unpark
  split
  · exact .of_entries_eq rfl (fun _ => id) (Nat.le_refl _)
  · exact .refl b

private theorem lasts_withdraw (b : Switchboard) (e : EntryId) : Lasts [] b (b.withdraw e) := by
  unfold Switchboard.withdraw
  split
  · rename_i x _
    split
    · have hl := lasts_take b x.table x.requestId
      split
      · rename_i h
        rw [h] at hl
        exact hl.trans (lasts_abandon _ _)
      · rename_i h
        rwa [h] at hl
    · exact .refl b
  · exact .refl b

private theorem lasts_step (b : Switchboard) (t : Task) : Lasts [] b (t.step b).2 := by
  cases t with
  | complete e outcome =>
    have hl := lasts_takeCallback b e
    simp only [Task.step]
    split <;> (rename_i h; rwa [h] at hl)
  | unpark e outcome => exact lasts_unpark b e
  | expire e =>
    have hl := lasts_takeCallback b e
    simp only [Task.step]
    split <;> (rename_i h; rwa [h] at hl)
  | withdraw e outcome => exact lasts_withdraw b e
  | submit e outcome => exact lasts_deliver b _

/-- Neither thread that settles a command makes a new one or opens a table again. -/
theorem lasts_settle (b : Switchboard) (t : Task) : Lasts [] b (b.settle t) := by
  have advance : ∀ (p : Option Task × Switchboard), Lasts [] p.2 (Task.advance p).2 := by
    rintro ⟨_ | t, b⟩
    · exact .refl b
    · exact lasts_step b t
  exact ((advance (some t, b)).trans (advance _)).trans (advance _)

theorem lasts_resolve (b : Switchboard) (outcome : Outcome Reply) (p : Pending) :
    Lasts [] b (b.resolve outcome p) := by
  cases p with
  | waiter w => exact lasts_deliver b _
  | entry e => exact lasts_settle b _

theorem lasts_receive (b : Switchboard) (t : TableId) (reply : Reply) : Lasts [] b (b.receive t reply).2 := by
  have hl := lasts_take b t reply.requestId
  unfold receive
  split
  · rename_i h
    rw [h] at hl
    exact hl.trans (lasts_resolve _ _ _)
  · rename_i h
    rwa [h] at hl

/-- Frames that come in on a table make no commands, whatever they hold. -/
theorem lasts_receiveFrames (frames : List (List UInt8)) (t : TableId) :
    ∀ b : Switchboard, Lasts [] b (b.receiveFrames t frames) := by
  have hframe : ∀ (b : Switchboard) frame, Lasts [] b (b.receiveFrame t frame) := by
    intro b frame
    unfold receiveFrame
    split
    · exact lasts_receive b t _
    · exact .refl b
  induction frames with
  | nil => exact fun b => .refl b
  | cons frame rest ih => exact fun b => (hframe b frame).trans (ih _)

private theorem lasts_expireAll (es : List EntryId) : ∀ b : Switchboard, Lasts [] b (b.expireAll es).2 := by
  induction es with
  | nil => exact fun b => .refl b
  | cons e rest ih => exact fun b => (lasts_settle b (.expire e)).trans (ih _)

/-- Failing what is due makes no commands. -/
theorem lasts_expireDue (b : Switchboard) (second : Nat) : Lasts [] b (b.expireDue second).2 :=
  have hl : Lasts [] b { b with wheel := b.wheel.later second } := .of_entries_eq rfl (fun _ => id) (Nat.le_refl _)
  hl.trans (lasts_expireAll _ _)

private theorem lasts_resolveAll (outcome : Outcome Reply) (pending : List Pending) :
    ∀ b : Switchboard, Lasts [] b (pending.foldl (fun b p => b.resolve outcome p) b) := by
  induction pending with
  | nil => exact fun b => .refl b
  | cons p rest ih => exact fun b => (lasts_resolve b outcome p).trans (ih _)

theorem lasts_drainWith (b : Switchboard) (t : TableId) (outcome : Outcome Reply) :
    Lasts [] b (b.drainWith t outcome).2 :=
  (lasts_drain b t).trans (lasts_resolveAll outcome _ _)

/-- A table is closed once its requests have been failed. -/
theorem closed_drainWith {b : Switchboard} {t : TableId} (ht : t < b.tables.length) (outcome : Outcome Reply) :
    ((b.drainWith t outcome).2.table t).closed = true := by
  refine (lasts_resolveAll outcome (b.drain t).1 (b.drain t).2).closed t ?_
  simp [Switchboard.drain, table_setTable, ht]

theorem lasts_timeOut (b : Switchboard) (a : Awaited) : Lasts [] b (b.timeOut a) := by
  have hl := lasts_take b a.table a.requestId
  refine Lasts.trans ?_ (lasts_deliver _ _)
  split
  · rename_i h
    rw [h] at hl
    split
    · exact hl
    · exact hl.trans (lasts_abandon _ _)
  · rename_i h
    rwa [h] at hl

theorem lasts_newTable (b : Switchboard) : Lasts [] b b.newTable.2 :=
  .of_entries_eq rfl (fun t h => by rwa [table_newTable]) (by simp [newTable])

theorem lasts_await (b : Switchboard) (t : TableId) (id : Ident) (bound : Span) :
    Lasts [] b (b.await t id bound).2 := by
  have hw : Lasts [] b b.newWaiter.2 := .of_entries_eq rfl (fun _ h => h) (Nat.le_refl _)
  have hl := hw.trans (lasts_register b.newWaiter.2 t id (.waiter b.waiters))
  simp only [Switchboard.await]
  simp only [newWaiter] at hl ⊢
  split
  · rename_i h
    rwa [h] at hl
  · rename_i h
    rwa [h] at hl

/-- A command that is parked stands after all others. -/
theorem lasts_defer (b : Switchboard) (now : Nat) (id : Ident) (wait : Span) (t : TableId) :
    Lasts [id] b (b.defer now id wait t).2 where
  kept e x hx := by
    refine ⟨x, ?_, rfl⟩
    rw [entries_defer, List.getElem?_append_left (List.getElem?_eq_some_iff.mp hx).1, hx]
  known i hi := by
    simpa [requestIds] using hi
  closed _ h := h
  tables := Nat.le_refl _

private theorem lasts_registerDeferred (b : Switchboard) (now : Nat) (id : Ident) (wait : Span) (t : TableId) :
    Lasts [] (b.defer now id wait t).2 (b.deferRegistered now id wait t).2.2 := by
  have hl := lasts_register (b.defer now id wait t).2 t id (.entry (b.defer now id wait t).1)
  simp only [deferRegistered]
  split
  · rename_i h
    rwa [h] at hl
  · rename_i h
    rw [h] at hl
    exact hl.trans (lasts_resolve _ (.error .connectionClosed) (.entry (b.defer now id wait t).1))

/-- Deferring a command adds that one, under its own identifier, also when the table is closed. -/
theorem lasts_deferRegistered (b : Switchboard) (now : Nat) (id : Ident) (wait : Span) (t : TableId) :
    Lasts [id] b (b.deferRegistered now id wait t).2.2 :=
  (lasts_defer b now id wait t).trans (lasts_registerDeferred b now id wait t)

/-- A command is recorded with the identifier, the wait and the table that it is posted with. -/
theorem entry_deferRegistered (b : Switchboard) (now : Nat) (id : Ident) (wait : Span) (t : TableId) :
    (b.deferRegistered now id wait t).1 = b.entries.length ∧
      ∃ x : Entry, (b.deferRegistered now id wait t).2.2.entries[b.entries.length]? = some x ∧
        x.disarmed = ⟨id, Wheel.deadline now wait, wait, t, false⟩ := by
  have hx : (b.defer now id wait t).2.entries[(b.defer now id wait t).1]? =
      some ⟨id, Wheel.deadline now wait, wait, t, true⟩ := by
    rw [entries_defer]
    exact List.getElem?_concat_length
  refine ⟨?_, (lasts_registerDeferred b now id wait t).kept _ _ hx⟩
  simp only [deferRegistered]
  split <;> rfl

end LockService.Switchboard
