import LockService.Proofs.Lasting
import LockService.Proofs.Outcomes

/-!
# What the wheel fails

The wheel holds unfinished commands, each at its own deadline, whatever identifiers the commands have
(`Switchboard.Punctual`). No operation runs a callback on a timeout (`Switchboard.Calm`) except the one that fails what
is due: it fails all that is due by then and still unfinished, in the order of the deadlines, and leaves the rest alone
(`Switchboard.Punctual.fails_expireDue`). A command loses its place on the wheel early only to another one with the same
deadline and identifier.
-/

namespace LockService

/-- The callback that a delivery runs, and the outcome on which it runs it. -/
def Delivery.run? : Delivery → Option (EntryId × Outcome Reply)
  | callback e outcome => some (e, outcome)
  | _ => none

namespace Switchboard

variable {b b' b'' : Switchboard} {e : EntryId} {x : Entry}

/-- The callbacks that have run and the outcomes on which they ran, in order. -/
def runs (b : Switchboard) : List (EntryId × Outcome Reply) := b.delivered.filterMap Delivery.run?

theorem runs_deliver (b : Switchboard) (d : Delivery) : (b.deliver d).runs = b.runs ++ d.run?.toList := by
  simp only [runs, deliver, List.filterMap_append]
  cases h : d.run? <;> simp [h]

@[simp] theorem runs_abandon (b : Switchboard) (p : Pending) : (b.abandon p).runs = b.runs := by
  cases p with
  | waiter w => simp [abandon, runs_deliver, Delivery.run?]
  | entry e => rfl

/-- What the caller of a command has heard are the outcomes on which its callback ran. -/
theorem outcomes_eq_runs (b : Switchboard) (e : EntryId) :
    b.outcomes (.entry e) = (b.runs.filter (·.1 = e)).map (·.2) := by
  rw [outcomes, runs]
  induction b.delivered with
  | nil => rfl
  | cons d rest ih =>
    cases d with
    | callback e' outcome =>
      rw [List.filterMap_cons_some (by rfl)]
      by_cases he : e' = e
      · simpa [Delivery.recipient, Delivery.outcome, he] using ih
      · simpa [Delivery.recipient, he] using ih
    | waiter w outcome =>
      rw [List.filterMap_cons_none (by rfl), List.filter_cons_of_neg (by simp [Delivery.recipient])]
      exact ih
    | abandoned w =>
      rw [List.filterMap_cons_none (by rfl), List.filter_cons_of_neg (by simp [Delivery.recipient])]
      exact ih

/-- The caller of a command has heard an outcome exactly when its callback ran on it. -/
theorem mem_outcomes_iff {outcome : Outcome Reply} : outcome ∈ b.outcomes (.entry e) ↔ (e, outcome) ∈ b.runs := by
  simp [outcomes_eq_runs]

/-- Another command has the same deadline and identifier. -/
def HasTwin (b : Switchboard) (e : EntryId) (x : Entry) : Prop :=
  ∃ e' x', e' ≠ e ∧ b.entries[e']? = some x' ∧ x'.deadline = x.deadline ∧ x'.requestId = x.requestId

/-- What stands on the wheel are unfinished commands, each at its own deadline and under its own identifier, and all of
them stand there but those with a twin. The finished commands are those whose callbacks have run. -/
structure Punctual (b : Switchboard) : Prop where
  tidy : b.wheel.Tidy
  parked : ∀ d i (e : EntryId), b.wheel.find? d i = some e →
    ∃ x : Entry, b.entries[e]? = some x ∧ x.deadline = d ∧ x.requestId = i ∧ x.armed = true
  placed : ∀ (e : EntryId) (x : Entry), b.entries[e]? = some x → x.armed = true →
    b.wheel.find? x.deadline x.requestId = some e ∨ b.HasTwin e x
  ran : ∀ e : EntryId, (∃ outcome, (e, outcome) ∈ b.runs) ↔ ∃ x : Entry, b.entries[e]? = some x ∧ x.armed = false

/-- On a new switchboard nothing is on the wheel. -/
theorem punctual_empty : Punctual {} := by
  refine ⟨Wheel.tidy_nil, ?_, ?_, ?_⟩
  · intro d i e h
    cases h
  · intro e x h
    cases h
  · intro e
    simp [runs]

/-- Commands stay what they are, and no callback runs on a timeout. -/
structure Calm (b b' : Switchboard) : Prop where
  punctual : b.Punctual → b'.Punctual
  kept : ∀ (e : EntryId) (x : Entry), b.entries[e]? = some x →
    ∃ x', b'.entries[e]? = some x' ∧ x'.disarmed = x.disarmed
  runs : ∃ new, b'.runs = b.runs ++ new ∧ ∀ e wait, (e, .error (.timeout wait)) ∉ new

theorem Calm.trans (h : b.Calm b') (h' : b'.Calm b'') : b.Calm b'' where
  punctual := h'.punctual ∘ h.punctual
  kept e x hx := by
    obtain ⟨x', hx', hd⟩ := h.kept e x hx
    obtain ⟨x'', hx'', hd'⟩ := h'.kept e x' hx'
    exact ⟨x'', hx'', hd'.trans hd⟩
  runs := by
    obtain ⟨new, hnew, hcalm⟩ := h.runs
    obtain ⟨new', hnew', hcalm'⟩ := h'.runs
    refine ⟨new ++ new', by rw [hnew', hnew, List.append_assoc], fun e wait hm => ?_⟩
    rcases List.mem_append.mp hm with hm | hm
    · exact hcalm e wait hm
    · exact hcalm' e wait hm

/-- Whatever leaves the commands and the wheel alone and runs no callback. -/
theorem Calm.of_eq (he : b'.entries = b.entries) (hw : b'.wheel = b.wheel) (hr : b'.runs = b.runs) : b.Calm b' where
  punctual h := by
    refine ⟨hw ▸ h.tidy, ?_, ?_, ?_⟩
    · rw [hw, he]
      exact h.parked
    · simp only [HasTwin, hw, he]
      exact h.placed
    · rw [hr, he]
      exact h.ran
  kept e x hx := ⟨x, he ▸ hx, rfl⟩
  runs := ⟨[], hr.trans (List.append_nil _).symm, by simp⟩

theorem Calm.refl (b : Switchboard) : b.Calm b := .of_eq rfl rfl rfl

theorem calm_setTable (b : Switchboard) (t : TableId) (table : PendingTable) : b.Calm (b.setTable t table) :=
  .of_eq rfl rfl rfl

private theorem calm_deliver (b : Switchboard) {d : Delivery} (hd : d.run? = none) : b.Calm (b.deliver d) :=
  .of_eq rfl rfl (by simp [runs_deliver, hd])

private theorem calm_abandon (b : Switchboard) (p : Pending) : b.Calm (b.abandon p) := by
  cases p with
  | waiter w => exact calm_deliver b rfl
  | entry e => exact .refl b

private theorem calm_register (b : Switchboard) (t : TableId) (id : Ident) (p : Pending) :
    b.Calm (b.register t id p).2 := by
  unfold register
  dsimp only
  split
  · exact .refl b
  · split
    · exact (calm_setTable b t _).trans (calm_abandon _ _)
    · exact calm_setTable b t _

/-! ### A command is completed -/

private theorem HasTwin.of_disarm (hx : b.entries[e]? = some x) (he : b'.entries = b.entries.set e x.disarmed)
    {e' : EntryId} {x' : Entry} (h : b.HasTwin e' x') : b'.HasTwin e' x' := by
  obtain ⟨e'', x'', hne, hx'', hd, hi⟩ := h
  by_cases hee : e = e''
  · subst hee
    cases hx.symm.trans hx''
    exact ⟨e, x.disarmed, hne, by rw [he, List.getElem?_set_self (List.getElem?_eq_some_iff.mp hx).1], hd, hi⟩
  · exact ⟨e'', x'', hne, by rw [he, List.getElem?_set_ne hee, hx''], hd, hi⟩

/-- A command leaves its slot and its place on the wheel, which a twin may have taken. -/
theorem Punctual.remove (h : b.Punctual) (hx : b.entries[e]? = some x) (he : b'.entries = b.entries.set e x.disarmed)
    (hw : b'.wheel = b.wheel.remove x.deadline x.requestId) {outcome : Outcome Reply}
    (hr : b'.runs = b.runs ++ [(e, outcome)]) : b'.Punctual where
  tidy := hw ▸ h.tidy.remove _ _
  parked d i e' hf := by
    rw [hw, Wheel.find?_remove h.tidy] at hf
    split at hf
    · cases hf
    · rename_i hne
      obtain ⟨x', hx', rfl, rfl, ha⟩ := h.parked d i e' hf
      have hee : e ≠ e' := by
        rintro rfl
        cases hx.symm.trans hx'
        exact hne ⟨rfl, rfl⟩
      exact ⟨x', by rw [he, List.getElem?_set_ne hee, hx'], rfl, rfl, ha⟩
  placed e' x' hx' ha := by
    rw [he] at hx'
    obtain ⟨hee, hx'⟩ := getElem?_of_armed_set hx' ha
    rw [hw, Wheel.find?_remove h.tidy]
    rcases h.placed e' x' hx' ha with hf | ht
    · -- what stood at the place of the command that is over is its twin and leaves the wheel with it
      split
      · rename_i hsame
        exact .inr (.of_disarm hx he ⟨e, x, hee, hx, hsame.1.symm, hsame.2.symm⟩)
      · exact .inl hf
    · exact .inr (ht.of_disarm hx he)
  ran e' := by
    have hl := (List.getElem?_eq_some_iff.mp hx).1
    simp only [hr, he, List.mem_append, List.mem_singleton, Prod.mk.injEq, exists_or]
    by_cases hee : e' = e
    · subst hee
      simp [hl, Entry.disarmed]
    · rw [List.getElem?_set_ne (Ne.symm hee), ← h.ran]
      simp [hee]

private theorem calm_complete (b : Switchboard) (e : EntryId) {outcome : Outcome Reply}
    (ho : ∀ wait, outcome ≠ .error (.timeout wait)) : b.Calm (b.settle (.complete e outcome)) := by
  by_cases ha : b.isArmed e = true
  · obtain ⟨x, hx, hxa⟩ := armed_of_isArmed ha
    let b₁ : Switchboard := { b with entries := b.entries.set e x.disarmed }
    have hx₁ : b₁.entries[e]? = some x.disarmed :=
      List.getElem?_set_self (List.getElem?_eq_some_iff.mp hx).1
    have hr : (b.settle (.complete e outcome)).runs = b.runs ++ [(e, outcome)] := by
      rw [settle_complete hx hxa, unpark_eq hx₁, runs_deliver]
      rfl
    refine ⟨fun h => h.remove hx ?_ ?_ hr, (lasts_settle b _).kept, _, hr, by simp [eq_comm, ho]⟩
    all_goals
      rw [settle_complete hx hxa, unpark_eq hx₁]
      rfl
  · rw [settle_complete_of_not_armed (by simpa using ha)]
    exact .refl b

/-- A pending request that is resolved on anything but a timeout runs no callback on a timeout. -/
theorem calm_resolve (b : Switchboard) {outcome : Outcome Reply} (ho : ∀ wait, outcome ≠ .error (.timeout wait))
    (p : Pending) : b.Calm (b.resolve outcome p) := by
  cases p with
  | waiter w => exact calm_deliver b rfl
  | entry e => exact calm_complete b e ho

private theorem calm_receive (b : Switchboard) (t : TableId) (reply : Reply) : b.Calm (b.receive t reply).2 := by
  have ht : b.Calm (b.take t reply.requestId).2 := calm_setTable b t _
  unfold receive
  split
  · rename_i h
    rw [h] at ht
    exact ht.trans (calm_resolve _ (by simp) _)
  · rename_i h
    rwa [h] at ht

/-- Replies run callbacks on what the peer said, never on a timeout. -/
theorem calm_receiveFrames (frames : List (List UInt8)) (t : TableId) :
    ∀ b : Switchboard, b.Calm (b.receiveFrames t frames) := by
  have hframe : ∀ (b : Switchboard) frame, b.Calm (b.receiveFrame t frame) := by
    intro b frame
    unfold receiveFrame
    split
    · exact calm_receive b t _
    · exact .refl b
  induction frames with
  | nil => exact fun b => .refl b
  | cons frame rest ih => exact fun b => (hframe b frame).trans (ih _)

private theorem calm_resolveAll {outcome : Outcome Reply} (ho : ∀ wait, outcome ≠ .error (.timeout wait))
    (pending : List Pending) : ∀ b : Switchboard, b.Calm (pending.foldl (fun b p => b.resolve outcome p) b) := by
  induction pending with
  | nil => exact fun b => .refl b
  | cons p rest ih => exact fun b => (calm_resolve b ho p).trans (ih _)

theorem calm_drainWith (b : Switchboard) (t : TableId) {outcome : Outcome Reply}
    (ho : ∀ wait, outcome ≠ .error (.timeout wait)) : b.Calm (b.drainWith t outcome).2 :=
  (calm_setTable b t _).trans (calm_resolveAll ho _ _)

/-- The deadline of a waiting caller is its own: when it passes no callback runs. -/
theorem calm_timeOut (b : Switchboard) (a : Awaited) : b.Calm (b.timeOut a) := by
  have ht : b.Calm (b.take a.table a.requestId).2 := calm_setTable b _ _
  refine Calm.trans ?_ (calm_deliver _ rfl)
  split
  · rename_i h
    rw [h] at ht
    split
    · exact ht
    · exact ht.trans (calm_abandon _ _)
  · rename_i h
    rwa [h] at ht

theorem calm_newTable (b : Switchboard) : b.Calm b.newTable.2 := .of_eq rfl rfl rfl

theorem calm_await (b : Switchboard) (t : TableId) (id : Ident) (bound : Span) : b.Calm (b.await t id bound).2 := by
  have hw : b.Calm b.newWaiter.2 := .of_eq rfl rfl rfl
  have hr := hw.trans (calm_register b.newWaiter.2 t id (.waiter b.waiters))
  simp only [Switchboard.await]
  simp only [newWaiter] at hr ⊢
  split
  all_goals
    rename_i h
    rwa [h] at hr

/-! ### A command is parked -/

theorem calm_defer (b : Switchboard) (now : Nat) (id : Ident) (wait : Span) (t : TableId) :
    b.Calm (b.defer now id wait t).2 := by
  have old : ∀ {e : EntryId} {x : Entry}, b.entries[e]? = some x →
      (b.defer now id wait t).2.entries[e]? = some x := by
    intro e x hx
    rw [entries_defer, List.getElem?_append_left (List.getElem?_eq_some_iff.mp hx).1, hx]
  have new : (b.defer now id wait t).2.entries[b.entries.length]? =
      some ⟨id, Wheel.deadline now wait, wait, t, true⟩ := by
    rw [entries_defer]
    exact List.getElem?_concat_length
  refine ⟨fun h => ⟨h.tidy.insert _ _ _, ?_, ?_, ?_⟩, (lasts_defer b now id wait t).kept, [], ?_, by simp⟩
  · intro d i e hf
    rw [wheel_defer, Wheel.find?_insert h.tidy] at hf
    split at hf
    · rename_i hd
      cases hf
      exact ⟨_, new, hd.1.symm, hd.2.symm, rfl⟩
    · obtain ⟨x, hx, hd⟩ := h.parked d i e hf
      exact ⟨x, old hx, hd⟩
  · intro e x hx ha
    rw [wheel_defer, Wheel.find?_insert h.tidy]
    rcases getElem?_defer hx with hx | ⟨rfl, rfl⟩
    · have hl : b.entries.length ≠ e := Nat.ne_of_gt (List.getElem?_eq_some_iff.mp hx).1
      rcases h.placed e x hx ha with hf | ⟨e', x', hne, hx', hd⟩
      · -- a command with the new one's deadline and identifier gives its place up to it
        split
        · rename_i hd
          exact .inr ⟨_, _, hl, new, hd.1.symm, hd.2.symm⟩
        · exact .inl hf
      · exact .inr ⟨e', x', hne, old hx', hd⟩
    · exact .inl (if_pos ⟨rfl, rfl⟩)
  · intro e
    refine (h.ran e).trans ⟨fun ⟨x, hx, ha⟩ => ⟨x, old hx, ha⟩, ?_⟩
    rintro ⟨x, hx, ha⟩
    rcases getElem?_defer hx with hx | ⟨-, rfl⟩
    · exact ⟨x, hx, ha⟩
    · cases ha
  · exact (List.append_nil _).symm

/-- Deferring and registering a command runs no callback on a timeout: on a closed table it fails with the connection.
-/
theorem calm_deferRegistered (b : Switchboard) (now : Nat) (id : Ident) (wait : Span) (t : TableId) :
    b.Calm (b.deferRegistered now id wait t).2.2 := by
  have hr := (calm_defer b now id wait t).trans
    (calm_register (b.defer now id wait t).2 t id (.entry (b.defer now id wait t).1))
  simp only [deferRegistered]
  split
  · rename_i h
    rwa [h] at hr
  · rename_i h
    rw [h] at hr
    have ho : ∀ wait, (.error .connectionClosed : Outcome Reply) ≠ .error (.timeout wait) := by simp
    exact hr.trans (calm_resolve _ ho (.entry (b.defer now id wait t).1))

/-! ### What is due is failed -/

/-- The callbacks of commands with the timeouts on which they run. -/
def timeouts (b : Switchboard) (es : List EntryId) : List (EntryId × Outcome Reply) :=
  es.filterMap fun e => b.entries[e]?.map fun x => (e, .error (.timeout x.wait))

private theorem mem_timeouts_iff {es : List EntryId} {outcome : Outcome Reply} : (e, outcome) ∈ b.timeouts es ↔
    ∃ x, (e ∈ es ∧ b.entries[e]? = some x) ∧ outcome = .error (.timeout x.wait) := by
  simp only [timeouts, List.mem_filterMap, Option.map_eq_some_iff, Prod.mk.injEq]
  constructor
  · rintro ⟨e', he', x, hx, rfl, rfl⟩
    exact ⟨x, ⟨he', hx⟩, rfl⟩
  · rintro ⟨x, ⟨he, hx⟩, rfl⟩
    exact ⟨e, he, x, hx, rfl, rfl⟩

private theorem timeouts_append (b : Switchboard) (es es' : List EntryId) :
    b.timeouts (es ++ es') = b.timeouts es ++ b.timeouts es' := List.filterMap_append

private theorem timeouts_of_not_mem {es : List EntryId} (he : e ∉ es) : (b.timeouts es).filter (·.1 = e) = [] := by
  refine List.filter_eq_nil_iff.mpr ?_
  rintro ⟨e', outcome⟩ hm
  obtain ⟨x, ⟨he', -⟩, -⟩ := mem_timeouts_iff.mp hm
  simpa using fun h : e' = e => he (h ▸ he')

private theorem timeouts_of_mem {es : List EntryId} (hn : es.Nodup) (he : e ∈ es) (hx : b.entries[e]? = some x) :
    (b.timeouts es).filter (·.1 = e) = [(e, .error (.timeout x.wait))] := by
  obtain ⟨l, r, rfl⟩ := List.append_of_mem he
  obtain ⟨-, hr, hdisjoint⟩ := List.nodup_append.mp hn
  have hl : e ∉ l := fun h => hdisjoint e h e List.mem_cons_self rfl
  have hhead : b.timeouts (e :: r) = (e, .error (.timeout x.wait)) :: b.timeouts r := by simp [timeouts, hx]
  rw [timeouts_append, List.filter_append, timeouts_of_not_mem hl, hhead, List.nil_append,
    List.filter_cons_of_pos (by simp), timeouts_of_not_mem (List.nodup_cons.mp hr).1]

/-- Some commands, and no others, have failed with their timeouts one after the other. -/
structure Fails (es : List EntryId) (b b' : Switchboard) : Prop where
  wheel : b'.wheel = b.wheel
  failed : ∀ e ∈ es, b'.entries[e]? = b.entries[e]?.map Entry.disarmed
  others : ∀ e ∉ es, b'.entries[e]? = b.entries[e]?
  runs : b'.runs = b.runs ++ b.timeouts es
  holders : ∀ t i, (∀ e ∈ es, ∀ x : Entry, b.entries[e]? = some x → x.table = t → x.requestId ≠ i) →
    b'.holder? t i = b.holder? t i

private theorem Fails.refl (b : Switchboard) : Fails [] b b :=
  ⟨rfl, by simp, by simp, (List.append_nil _).symm, fun _ _ _ => rfl⟩

private theorem withdraw_leaves (b : Switchboard) (hx : b.entries[e]? = some x) :
    (b.withdraw e).runs = b.runs ∧
      ∀ t i, (x.table = t → x.requestId ≠ i) → (b.withdraw e).holder? t i = b.holder? t i := by
  have htake : ∀ t i, (x.table = t → x.requestId ≠ i) →
      (b.take x.table x.requestId).2.holder? t i = b.holder? t i := by
    intro t i hne
    rw [holder?_take, if_neg fun he => hne he.1.symm he.2.symm]
  simp only [withdraw, hx]
  split
  · split
    · rename_i p board hp
      obtain rfl : (b.take x.table x.requestId).2 = board := congrArg Prod.snd hp
      refine ⟨runs_abandon _ p, fun t i hne => ?_⟩
      cases p with
      | waiter w => exact htake t i hne
      | entry e' => exact htake t i hne
    · rename_i board hp
      obtain rfl : (b.take x.table x.requestId).2 = board := congrArg Prod.snd hp
      exact ⟨rfl, htake⟩
  · exact ⟨rfl, fun _ _ _ => rfl⟩

private theorem fails_expire (hx : b.entries[e]? = some x) (ha : x.armed = true) :
    Fails [e] b (b.settle (.expire e)) := by
  have hl := (List.getElem?_eq_some_iff.mp hx).1
  let b₁ : Switchboard := { b with entries := b.entries.set e x.disarmed }
  have hx₁ : b₁.entries[e]? = some x.disarmed := List.getElem?_set_self hl
  obtain ⟨hruns, hholder⟩ := withdraw_leaves b₁ hx₁
  rw [settle_expire hx ha]
  refine ⟨wheel_withdraw b₁ e, fun e' he => ?_, fun e' he => ?_, ?_, fun t i hne => ?_⟩
  · cases List.mem_singleton.mp he
    show (b₁.withdraw e).entries[e]? = _
    rw [entries_withdraw, hx₁, hx]
    rfl
  · show (b₁.withdraw e).entries[e']? = _
    rw [entries_withdraw]
    exact List.getElem?_set_ne fun h => he (List.mem_singleton.mpr h.symm)
  · rw [runs_deliver, hruns]
    simp [timeouts, hx, Delivery.run?, b₁, runs]
  · exact hholder t i fun ht => hne e (List.mem_singleton_self e) x hx ht

private theorem Fails.append {es es' : List EntryId} (h : Fails es b b') (h' : Fails es' b' b'')
    (hd : ∀ e ∈ es, e ∉ es') : Fails (es ++ es') b b'' := by
  have hafter : ∀ e ∈ es', b'.entries[e]? = b.entries[e]? := fun e he' => h.others e fun he => hd e he he'
  refine ⟨h'.wheel.trans h.wheel, fun e he => ?_, fun e he => ?_, ?_, fun t i hne => ?_⟩
  · by_cases he' : e ∈ es'
    · rw [h'.failed e he', hafter e he']
    · rw [h'.others e he', h.failed e ((List.mem_append.mp he).resolve_right he')]
  · rw [List.mem_append, not_or] at he
    rw [h'.others e he.2, h.others e he.1]
  · have htimeouts : b'.timeouts es' = b.timeouts es' := List.filterMap_congr fun e he => by rw [hafter e he]
    rw [h'.runs, h.runs, htimeouts, List.append_assoc, timeouts_append]
  · rw [h'.holders t i fun e he x hx => ?_, h.holders t i fun e he => hne e (List.mem_append_left _ he)]
    exact hne e (List.mem_append_right _ he) x (hafter e he ▸ hx)

private theorem fails_expireAll {es : List EntryId} (hn : es.Nodup) (ha : ∀ e ∈ es, b.isArmed e = true) :
    (b.expireAll es).1 = es.length ∧ Fails es b (b.expireAll es).2 := by
  induction es generalizing b with
  | nil => exact ⟨rfl, .refl b⟩
  | cons e rest ih =>
    obtain ⟨hfresh, hrest⟩ := List.nodup_cons.mp hn
    have harmed := ha e List.mem_cons_self
    obtain ⟨x, hx, hxa⟩ := armed_of_isArmed harmed
    have hone := fails_expire hx hxa
    obtain ⟨hcount, hall⟩ := ih hrest (b := b.settle (.expire e)) fun e' he' => by
      rw [isArmed, hone.others e' fun h => hfresh (List.mem_singleton.mp h ▸ he')]
      exact ha e' (List.mem_cons_of_mem _ he')
    refine ⟨?_, hone.append hall fun e' he' => List.mem_singleton.mp he' ▸ hfresh⟩
    have hfailed : (b.entries[e]?.map (·.armed)).getD false = true := harmed
    simp only [expireAll, hfailed, if_true, hcount, List.length_cons]
    exact Nat.add_comm 1 _

/-- What the wheel gives out as due is unfinished, and its own deadline has passed. -/
theorem Punctual.isArmed_of_mem_due (h : b.Punctual) {second : Nat} (he : e ∈ b.wheel.due second) :
    ∃ x, b.entries[e]? = some x ∧ x.armed = true ∧ x.deadline ≤ second := by
  obtain ⟨d, i, hd, hf⟩ := (Wheel.mem_due_iff h.tidy).mp he
  obtain ⟨x, hx, rfl, -, ha⟩ := h.parked d i e hf
  exact ⟨x, hx, ha, hd⟩

private theorem Punctual.not_mem_due (h : b.Punctual) {second : Nat} (hx : b.entries[e]? = some x)
    (hd : ¬ x.deadline ≤ second) : e ∉ b.wheel.due second := by
  intro he
  obtain ⟨x', hx', -, hle⟩ := h.isArmed_of_mem_due he
  cases hx.symm.trans hx'
  exact hd hle

/-- No command is due twice. -/
theorem Punctual.nodup_due (h : b.Punctual) (second : Nat) : (b.wheel.due second).Nodup := by
  have hparked : b.wheel.parked.Nodup := by
    refine Wheel.nodup_parked h.tidy fun s i t j e hs ht => ?_
    obtain ⟨x, hx, rfl, rfl, -⟩ := h.parked s i e hs
    obtain ⟨x', hx', rfl, rfl, -⟩ := h.parked t j e ht
    cases hx.symm.trans hx'
    exact ⟨rfl, rfl⟩
  rw [← Wheel.due_append_parked_later second] at hparked
  exact (List.nodup_append.mp hparked).1

/-- Failing what is due counts it, runs its callbacks on their timeouts, and leaves the others alone. -/
theorem Punctual.fails_expireDue (h : b.Punctual) (second : Nat) :
    (b.expireDue second).1 = (b.wheel.due second).length ∧
      Fails (b.wheel.due second) { b with wheel := b.wheel.later second } (b.expireDue second).2 := by
  refine fails_expireAll (h.nodup_due second) fun e he => ?_
  obtain ⟨x, hx, ha, -⟩ := h.isArmed_of_mem_due he
  exact (isArmed_eq hx).trans ha

private theorem Fails.outcomes_of_mem {es : List EntryId} (h : Fails es b b') (hn : es.Nodup) (he : e ∈ es)
    (hx : b.entries[e]? = some x) : b'.outcomes (.entry e) = b.outcomes (.entry e) ++ [.error (.timeout x.wait)] := by
  rw [outcomes_eq_runs, h.runs, List.filter_append, timeouts_of_mem hn he hx, List.map_append, outcomes_eq_runs]
  rfl

private theorem Fails.outcomes_of_not_mem {es : List EntryId} (h : Fails es b b') (he : e ∉ es) :
    b'.outcomes (.entry e) = b.outcomes (.entry e) := by
  rw [outcomes_eq_runs, h.runs, List.filter_append, timeouts_of_not_mem he, List.append_nil, outcomes_eq_runs]

/-- A command that has been failed is finished. -/
theorem Fails.isArmed_of_mem {es : List EntryId} (h : Fails es b b') (he : e ∈ es) : b'.isArmed e = false := by
  rw [isArmed, h.failed e he]
  cases b.entries[e]? <;> rfl

private theorem Fails.hasTwin {es : List EntryId} (h : Fails es b b') (ht : b.HasTwin e x) : b'.HasTwin e x := by
  obtain ⟨e', x', hne, hx', hd, hi⟩ := ht
  by_cases he' : e' ∈ es
  · exact ⟨e', x'.disarmed, hne, by rw [h.failed e' he', hx', Option.map_some], hd, hi⟩
  · exact ⟨e', x', hne, by rw [h.others e' he', hx'], hd, hi⟩

/-- The caller of a command that is due hears of its timeout, with the wait it asked for, and of nothing else. -/
theorem Punctual.outcomes_of_due (h : b.Punctual) {second : Nat} (he : e ∈ b.wheel.due second)
    (hx : b.entries[e]? = some x) :
    (b.expireDue second).2.outcomes (.entry e) = b.outcomes (.entry e) ++ [.error (.timeout x.wait)] :=
  (h.fails_expireDue second).2.outcomes_of_mem (h.nodup_due second) he hx

/-- The caller of a command that is not due hears nothing. -/
theorem Punctual.outcomes_of_not_due (h : b.Punctual) {second : Nat} (he : e ∉ b.wheel.due second) :
    (b.expireDue second).2.outcomes (.entry e) = b.outcomes (.entry e) :=
  (h.fails_expireDue second).2.outcomes_of_not_mem he

theorem Punctual.expireDue (h : b.Punctual) (second : Nat) : (b.expireDue second).2.Punctual := by
  have hf := (h.fails_expireDue second).2
  refine ⟨hf.wheel ▸ h.tidy.later second, fun d i e hd => ?_, fun e x hx ha => ?_, fun e => ?_⟩
  · rw [hf.wheel, Wheel.find?_later h.tidy] at hd
    split at hd
    · cases hd
    · rename_i hlate
      obtain ⟨x, hx, rfl, rfl, ha⟩ := h.parked d i e hd
      exact ⟨x, (hf.others e (h.not_mem_due hx hlate)).trans hx, rfl, rfl, ha⟩
  · have hdue : e ∉ b.wheel.due second := by
      intro hdue
      rw [← isArmed_eq hx, hf.isArmed_of_mem hdue] at ha
      cases ha
    rw [hf.wheel, Wheel.find?_later h.tidy]
    rcases h.placed e x ((hf.others e hdue).symm.trans hx) ha with hw | ht
    · split
      · rename_i hle
        exact absurd ((Wheel.mem_due_iff h.tidy).mpr ⟨_, _, hle, hw⟩) hdue
      · exact .inl hw
    · exact .inr (hf.hasTwin ht)
  · rw [hf.runs]
    simp only [List.mem_append, exists_or, mem_timeouts_iff]
    by_cases hdue : e ∈ b.wheel.due second
    · obtain ⟨x, hx, -, -⟩ := h.isArmed_of_mem_due hdue
      rw [hf.failed e hdue]
      simp [hdue, hx, Entry.disarmed]
    · rw [hf.others e hdue]
      simpa [hdue, runs] using h.ran e

/-- What is due is in the order of the deadlines. -/
theorem Punctual.sorted_due (h : b.Punctual) (second : Nat) : (b.wheel.due second).Pairwise fun e e' =>
    ∀ x x' : Entry, b.entries[e]? = some x → b.entries[e']? = some x' → x.deadline ≤ x'.deadline := by
  have deadline : ∀ {s bucket e} {x : Entry}, (s, bucket) ∈ b.wheel → e ∈ bucket.map Prod.snd →
      b.entries[e]? = some x → x.deadline = s := by
    intro s bucket e x hs he hx
    obtain ⟨⟨i, e⟩, hi, rfl⟩ := List.mem_map.mp he
    have hf : b.wheel.find? s i = some e := by
      rw [Wheel.find?, h.tidy.bucket_eq hs, Assoc.get?_eq_some_iff (h.tidy.keyed _ hs)]
      exact hi
    obtain ⟨x', hx', rfl, -⟩ := h.parked _ _ _ hf
    cases hx.symm.trans hx'
    rfl
  rw [Wheel.due, List.pairwise_flatMap]
  constructor
  · rintro ⟨s, bucket⟩ hs
    replace hs := (List.takeWhile_sublist _).mem hs
    refine List.pairwise_iff_forall_sublist.mpr fun {e e'} hsub x x' hx hx' => ?_
    rw [deadline hs (hsub.mem (by simp)) hx, deadline hs (hsub.mem (by simp)) hx']
  · refine (h.tidy.sorted.sublist (List.takeWhile_sublist _)).imp_of_mem ?_
    rintro ⟨s, bucket⟩ ⟨s', bucket'⟩ hs hs' hlt e he e' he' x x' hx hx'
    replace hs := (List.takeWhile_sublist _).mem hs
    replace hs' := (List.takeWhile_sublist _).mem hs'
    rw [deadline hs he hx, deadline hs' he' hx']
    exact Nat.le_of_lt hlt

/-- Unfinished commands are those whose callers have heard nothing. -/
theorem Punctual.outcomes_eq_nil_iff (h : b.Punctual) (hx : b.entries[e]? = some x) :
    b.outcomes (.entry e) = [] ↔ x.armed = true := by
  have hran : (∃ outcome, (e, outcome) ∈ b.runs) ↔ x.armed = false := by
    rw [h.ran e, hx]
    simp
  rw [List.eq_nil_iff_forall_not_mem]
  simp only [mem_outcomes_iff, ← not_exists, hran, Bool.not_eq_false]

/-- What becomes of a board when everything due at or before a second is failed. -/
structure FailsDue (b : Switchboard) (second : Nat) : Prop where
  /-- Each command that is due fails once, and the number that comes back is how many there are. -/
  counted : (b.expireDue second).1 = (b.wheel.due second).length ∧ (b.wheel.due second).Nodup
  inOrder : (b.wheel.due second).Pairwise fun e e' =>
    ∀ x x' : Entry, b.entries[e]? = some x → b.entries[e']? = some x' → x.deadline ≤ x'.deadline
  runs : (b.expireDue second).2.runs = b.runs ++ b.timeouts (b.wheel.due second)
  /-- What is due is unfinished and has a deadline by then. -/
  due : ∀ e ∈ b.wheel.due second, ∃ x : Entry, b.entries[e]? = some x ∧ b.outcomes (.entry e) = [] ∧ x.deadline ≤ second
  /-- What is unfinished and has a deadline by then is due, unless it has lost its place on the wheel to a twin. -/
  exhaustive : ∀ (e : EntryId) (x : Entry), b.entries[e]? = some x → b.outcomes (.entry e) = [] →
    x.deadline ≤ second → e ∈ b.wheel.due second ∨ b.HasTwin e x
  /-- A command with a later deadline stays as it is and where it is on the wheel, and its caller hears nothing. -/
  later : ∀ (e : EntryId) (x : Entry), b.entries[e]? = some x → second < x.deadline →
    (b.expireDue second).2.entries[e]? = some x ∧
      (∀ id, (b.expireDue second).2.wheel.find? x.deadline id = b.wheel.find? x.deadline id) ∧
      (b.expireDue second).2.outcomes (.entry e) = b.outcomes (.entry e)
  /-- Only the places of what fails become free in the tables. -/
  tables : ∀ t id, (∀ e ∈ b.wheel.due second, ∀ x : Entry, b.entries[e]? = some x → x.table = t → x.requestId ≠ id) →
    (b.expireDue second).2.holder? t id = b.holder? t id

/-- Failing what is due fails each command on the wheel whose deadline has passed, once and in the order of the
deadlines. -/
theorem Punctual.failsDue (h : b.Punctual) (second : Nat) : b.FailsDue second := by
  obtain ⟨hcount, hf⟩ := h.fails_expireDue second
  refine ⟨⟨hcount, h.nodup_due second⟩, h.sorted_due second, hf.runs, fun e he => ?_, fun e x hx ho hd => ?_,
    fun e x hx hd => ?_, hf.holders⟩
  · obtain ⟨x, hx, ha, hd⟩ := h.isArmed_of_mem_due he
    exact ⟨x, hx, (h.outcomes_eq_nil_iff hx).mpr ha, hd⟩
  · refine (h.placed e x hx ((h.outcomes_eq_nil_iff hx).mp ho)).imp_left fun hw => ?_
    exact (Wheel.mem_due_iff h.tidy).mpr ⟨_, _, hd, hw⟩
  · have hdue := h.not_mem_due hx (Nat.not_le_of_lt hd)
    refine ⟨(hf.others e hdue).trans hx, fun id => ?_, h.outcomes_of_not_due hdue⟩
    rw [hf.wheel, Wheel.find?_later h.tidy, if_neg (Nat.not_le_of_lt hd)]

end Switchboard

/-! ### Seconds and nanoseconds -/

namespace Wheel

/-- A deadline is behind the end of the wait, however the moment at which the wait starts lies within its second. -/
theorem lt_of_deadline_le {start stop wait : Span} {second : Nat} (hd : deadline start.floorSeconds wait ≤ second)
    (hs : second ≤ stop.floorSeconds) : start.nanos + wait.nanos < stop.nanos := by
  have hw := wait.nanos_le_ceilSeconds
  unfold deadline Span.floorSeconds at hd
  unfold Span.floorSeconds at hs
  omega

/-- A deadline is reached less than two seconds after the end of the wait. -/
theorem deadline_lt (start wait : Span) :
    deadline start.floorSeconds wait * 1000000000 < start.nanos + wait.nanos + 2 * 1000000000 := by
  have hw := wait.ceilSeconds_lt
  rw [Nat.mul_comm]
  unfold deadline Span.floorSeconds
  omega

end Wheel

end LockService
