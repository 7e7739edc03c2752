import LockService.Pending.Awaited
import LockService.Proofs.Switchboard

/-!
# Who gets an outcome

Giving a pending request its outcome delivers it to one caller and leaves all tables alone. A callback that has left its
slot gets nothing more.
-/

namespace LockService

/-- What reaches whoever is pending when it gets an outcome. -/
def Pending.delivery (outcome : Outcome Reply) : Pending → Delivery
  | waiter w => .waiter w outcome
  | entry e => .callback e outcome

@[simp] theorem Pending.recipient_delivery (outcome : Outcome Reply) (p : Pending) :
    (p.delivery outcome).recipient = p := by
  cases p <;> rfl

@[simp] theorem Pending.outcome_delivery (outcome : Outcome Reply) (p : Pending) :
    (p.delivery outcome).outcome = outcome := by
  cases p <;> rfl

namespace Switchboard

variable {b : Switchboard} {e : EntryId} {x : Entry}

/-- Whether whoever is pending can still get an outcome: a callback only as long as it is in its slot. -/
def isOpen (b : Switchboard) : Pending → Bool
  | .waiter _ => true
  | .entry e => b.isArmed e

theorem outcomes_deliver (b : Switchboard) (d : Delivery) (p : Pending) :
    (b.deliver d).outcomes p = b.outcomes p ++ if d.recipient = p then [d.outcome] else [] := by
  simp only [outcomes, deliver, List.filter_append, List.map_append]
  by_cases h : d.recipient = p <;> simp [h]

theorem outcomes_eq_of_delivered {b b' : Switchboard} (h : b'.delivered = b.delivered) (p : Pending) :
    b'.outcomes p = b.outcomes p := by
  rw [outcomes, h, outcomes]

private theorem submission?_eq (e : EntryId) (d : Delivery) :
    d.submission? e = if d.recipient = .entry e then some d.outcome else none := by
  cases d with
  | callback e' outcome => simp [Delivery.submission?, Delivery.recipient, Delivery.outcome]
  | waiter w outcome => simp [Delivery.submission?, Delivery.recipient]
  | abandoned w => simp [Delivery.submission?, Delivery.recipient]

/-- What is heard of a command is what has been submitted to its callback. -/
theorem outcomes_entry (b : Switchboard) (e : EntryId) : b.outcomes (.entry e) = b.submissions e := by
  simp only [outcomes, submissions, submission?_eq]
  induction b.delivered with
  | nil => rfl
  | cons d rest ih => by_cases h : d.recipient = .entry e <;> simp [h, ih]

/-! ### Completing and failing a command in one go -/

/-- Completing an unfinished command takes its callback, takes it off the wheel and runs the callback. -/
theorem settle_complete (hx : b.entries[e]? = some x) (ha : x.armed = true) (outcome : Outcome Reply) :
    b.settle (.complete e outcome) =
      (({ b with entries := b.entries.set e x.disarmed } : Switchboard).unpark e).deliver (.callback e outcome) := by
  simp [settle, Task.advance, Task.step, takeCallback_of_armed hx ha]

/-- Completing a finished command does nothing. -/
theorem settle_complete_of_not_armed (h : b.isArmed e = false) (outcome : Outcome Reply) :
    b.settle (.complete e outcome) = b := by
  simp [settle, Task.advance, Task.step, takeCallback_of_not_armed h]

/-- Failing an unfinished command takes its callback, withdraws it from its table and runs the callback on the
timeout. -/
theorem settle_expire (hx : b.entries[e]? = some x) (ha : x.armed = true) :
    b.settle (.expire e) = (({ b with entries := b.entries.set e x.disarmed } : Switchboard).withdraw e).deliver
      (.callback e (.error (.timeout x.wait))) := by
  simp [settle, Task.advance, Task.step, takeCallback_of_armed hx ha]

/-- Failing a finished command does nothing. -/
theorem settle_expire_of_not_armed (h : b.isArmed e = false) : b.settle (.expire e) = b := by
  simp [settle, Task.advance, Task.step, takeCallback_of_not_armed h]

@[simp] theorem tables_unpark (b : Switchboard) (e : EntryId) : (b.unpark e).tables = b.tables := by
  unfold Switchboard.unpark
  split <;> rfl

@[simp] theorem delivered_unpark (b : Switchboard) (e : EntryId) : (b.unpark e).delivered = b.delivered := by
  unfold Switchboard.unpark
  split <;> rfl

/-! ### Giving an outcome -/

section Resolve

variable (b : Switchboard) (outcome : Outcome Reply) (p : Pending)

@[simp] theorem tables_resolve : (b.resolve outcome p).tables = b.tables := by
  cases p with
  | waiter w => rfl
  | entry e =>
    by_cases ha : b.isArmed e = true
    · obtain ⟨x, hx, hxa⟩ := armed_of_isArmed ha
      rw [resolve, settle_complete hx hxa]
      exact tables_unpark _ e
    · rw [resolve, settle_complete_of_not_armed (by simpa using ha)]

/-- Resolving a pending request delivers its outcome if somebody still listens. -/
theorem delivered_resolve : (b.resolve outcome p).delivered =
    b.delivered ++ if b.isOpen p then [p.delivery outcome] else [] := by
  cases p with
  | waiter w => rfl
  | entry e =>
    by_cases ha : b.isArmed e = true
    · obtain ⟨x, hx, hxa⟩ := armed_of_isArmed ha
      rw [resolve, settle_complete hx hxa, isOpen, if_pos ha, deliver, delivered_unpark]
      rfl
    · rw [resolve, settle_complete_of_not_armed (by simpa using ha), isOpen, if_neg ha, List.append_nil]

/-- Only the callback that is run leaves its slot. -/
theorem isOpen_resolve {p' : Pending} (h : p' ≠ p) : (b.resolve outcome p).isOpen p' = b.isOpen p' := by
  cases p with
  | waiter w => cases p' <;> rfl
  | entry e =>
    by_cases ha : b.isArmed e = true
    · obtain ⟨x, hx, hxa⟩ := armed_of_isArmed ha
      rw [resolve, settle_complete hx hxa]
      cases p' with
      | waiter w => rfl
      | entry e' =>
        have he : e ≠ e' := fun he => h (by rw [he])
        simp [isOpen, isArmed, deliver, he]
    · rw [resolve, settle_complete_of_not_armed (by simpa using ha)]

/-- Resolving a pending request is heard by the one it is for, and only while it listens. -/
theorem outcomes_resolve (p' : Pending) : (b.resolve outcome p).outcomes p' =
    b.outcomes p' ++ if p = p' ∧ b.isOpen p = true then [outcome] else [] := by
  by_cases ho : b.isOpen p = true
  · have hd : (b.resolve outcome p).delivered = (b.deliver (p.delivery outcome)).delivered := by
      rw [delivered_resolve, if_pos ho]
      rfl
    rw [outcomes_eq_of_delivered hd, outcomes_deliver]
    simp [ho]
  · have hd : (b.resolve outcome p).delivered = b.delivered := by
      rw [delivered_resolve, if_neg ho, List.append_nil]
    rw [outcomes_eq_of_delivered hd]
    simp [ho]

@[simp] theorem table_resolve (t : TableId) : (b.resolve outcome p).table t = b.table t := by
  rw [Switchboard.table, tables_resolve]
  rfl

@[simp] theorem holder?_resolve (t : TableId) (id : Ident) :
    (b.resolve outcome p).holder? t id = b.holder? t id := by
  rw [holder?, table_resolve, holder?]

end Resolve

end Switchboard

end LockService
