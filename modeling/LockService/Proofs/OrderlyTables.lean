import LockService.Proofs.Lasting
import LockService.Proofs.Outcomes

/-!
# Tables stay orderly

Whatever is done on a switchboard, every table holds each identifier once, and a closed table is empty
(`Switchboard.IsOrderly`). Unlike soundness this needs no identifiers of their own for the requests.
-/

namespace LockService.Switchboard

def IsOrderly (b : Switchboard) : Prop := ∀ t, (b.table t).Orderly

variable {b b' : Switchboard}

/-- Only what becomes of the tables matters. -/
theorem IsOrderly.of_tables_eq (h : b.IsOrderly) (ht : b'.tables = b.tables) : b'.IsOrderly := by
  intro t
  rw [Switchboard.table, ht]
  exact h t

theorem IsOrderly.take (h : b.IsOrderly) (t : TableId) (id : Ident) : (b.take t id).2.IsOrderly :=
  orderly_take h t id

/-- Registering under an identifier that is in the table replaces its entry, so that there is still one. -/
theorem IsOrderly.register (h : b.IsOrderly) (t : TableId) (id : Ident) (p : Pending) :
    (b.register t id p).2.IsOrderly := orderly_register h t id p

private theorem IsOrderly.deliver (h : b.IsOrderly) (d : Delivery) : (b.deliver d).IsOrderly := h

private theorem IsOrderly.abandon (h : b.IsOrderly) (p : Pending) : (b.abandon p).IsOrderly :=
  h.of_tables_eq (tables_abandon b p)

/-- Resolving a request changes no table. -/
theorem IsOrderly.resolve (h : b.IsOrderly) (outcome : Outcome Reply) (p : Pending) :
    (b.resolve outcome p).IsOrderly := h.of_tables_eq (tables_resolve b outcome p)

theorem IsOrderly.newTable (h : b.IsOrderly) : b.newTable.2.IsOrderly := by
  intro t
  rw [table_newTable]
  exact h t

/-! ### Answers and failures -/

private theorem IsOrderly.withdraw (h : b.IsOrderly) (e : EntryId) : (b.withdraw e).IsOrderly := by
  unfold Switchboard.withdraw
  split
  · rename_i x _
    split
    · have ht := h.take x.table x.requestId
      split
      · rename_i p b' heq
        rw [heq] at ht
        exact ht.abandon p
      · rename_i b' heq
        rwa [heq] at ht
    · exact h
  · exact h

private theorem IsOrderly.receive (h : b.IsOrderly) (t : TableId) (reply : Reply) :
    (b.receive t reply).2.IsOrderly := by
  have ht := h.take t reply.requestId
  unfold Switchboard.receive
  split
  · rename_i p b' heq
    rw [heq] at ht
    exact ht.resolve _ p
  · rename_i b' heq
    rwa [heq] at ht

theorem IsOrderly.receiveFrames (h : b.IsOrderly) (t : TableId) (frames : List (List UInt8)) :
    (b.receiveFrames t frames).IsOrderly := by
  induction frames generalizing b with
  | nil => exact h
  | cons frame rest ih =>
    have hframe : (b.receiveFrame t frame).IsOrderly := by
      unfold Switchboard.receiveFrame
      split
      · exact h.receive t _
      · exact h
    exact ih hframe

private theorem IsOrderly.expire (h : b.IsOrderly) (e : EntryId) : (b.settle (.expire e)).IsOrderly := by
  by_cases ha : b.isArmed e = true
  · obtain ⟨x, hx, hxa⟩ := armed_of_isArmed ha
    rw [settle_expire hx hxa]
    have hset : ({ b with entries := b.entries.set e x.disarmed } : Switchboard).IsOrderly := h
    exact hset.withdraw e
  · rw [settle_expire_of_not_armed (by simpa using ha)]
    exact h

theorem IsOrderly.expireDue (h : b.IsOrderly) (second : Nat) : (b.expireDue second).2.IsOrderly := by
  have all : ∀ (es : List EntryId) (b : Switchboard), b.IsOrderly → (b.expireAll es).2.IsOrderly := by
    intro es
    induction es with
    | nil => exact fun _ h => h
    | cons e rest ih => exact fun b h => ih (b.settle (.expire e)) (h.expire e)
  exact all _ _ h

theorem IsOrderly.drainWith (h : b.IsOrderly) (t : TableId) (outcome : Outcome Reply) :
    (b.drainWith t outcome).2.IsOrderly := by
  have all : ∀ (pending : List Pending) (b : Switchboard), b.IsOrderly →
      (pending.foldl (fun b p => b.resolve outcome p) b).IsOrderly := by
    intro pending
    induction pending with
    | nil => exact fun _ h => h
    | cons p rest ih => exact fun b h => ih _ (h.resolve outcome p)
  exact all (b.drain t).1 (b.drain t).2 (orderly_drain h t)

/-! ### Requests -/

theorem IsOrderly.timeOut (h : b.IsOrderly) (a : Awaited) : (b.timeOut a).IsOrderly := by
  have ht := h.take a.table a.requestId
  refine IsOrderly.deliver ?_ _
  split
  · rename_i p b' heq
    rw [heq] at ht
    split
    · exact ht
    · exact ht.abandon p
  · rename_i b' heq
    rwa [heq] at ht

theorem IsOrderly.await (h : b.IsOrderly) (t : TableId) (id : Ident) (bound : Span) :
    (b.await t id bound).2.IsOrderly := by
  have hw : b.newWaiter.2.IsOrderly := h
  have hr := hw.register t id (.waiter b.waiters)
  simp only [Switchboard.await, newWaiter] at hr ⊢
  split
  · rename_i heq
    rwa [heq] at hr
  · rename_i heq
    rwa [heq] at hr

/-- A deferred command is registered once, or not at all on a closed table. -/
theorem IsOrderly.deferRegistered (h : b.IsOrderly) (now : Nat) (id : Ident) (wait : Span) (t : TableId) :
    (b.deferRegistered now id wait t).2.2.IsOrderly := by
  have hd : (b.defer now id wait t).2.IsOrderly := h
  have hr := hd.register t id (.entry (b.defer now id wait t).1)
  simp only [Switchboard.deferRegistered]
  split
  · rename_i heq
    rwa [heq] at hr
  · rename_i b' heq
    rw [heq] at hr
    exact hr.resolve _ _

end LockService.Switchboard
