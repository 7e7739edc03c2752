import LockService.Pending.Traffic
import LockService.Proofs.Coherence
import LockService.Proofs.Lasting

/-!
# What holds after every run of operations

Whatever a client does with its switchboard, a callback command is found on the wheel and in its table exactly as long
as its callback has not run.
-/

namespace LockService.Traffic

open Switchboard

/-- What holds after every operation, when no two requests of the run share an identifier. The identifiers used so far
keep commands and awaited requests apart. -/
structure Inv (used : List Ident) (p : Traffic) : Prop where
  coherent : p.board.Coherent [] []
  known : ∀ id ∈ p.board.requestIds, id ∈ used
  awaited : ∀ a ∈ p.awaited, a.requestId ∈ used ∧ a.requestId ∉ p.board.requestIds

private theorem inv_start : Inv [] {} := by
  refine ⟨coherent_empty, ?_, ?_⟩
  · intro id h
    cases h
  · intro a h
    cases h

/-! ### One operation -/

section Step

variable {used : List Ident} {p : Traffic}

private theorem Inv.of_lasts (h : Inv used p) {board : Switchboard} {awaited : List Awaited} (hc : board.Coherent [] [])
    (hl : p.board.Lasts [] board) (ha : ∀ a ∈ awaited, a ∈ p.awaited) (ids : List Ident) :
    Inv (used ++ ids) ⟨board, awaited⟩ where
  coherent := hc
  known id hid := by
    have hid := hl.known id hid
    exact List.mem_append_left _ (h.known id (by simpa using hid))
  awaited a hm := by
    obtain ⟨hu, hn⟩ := h.awaited a (ha a hm)
    refine ⟨List.mem_append_left _ hu, fun hid => hn ?_⟩
    have hid := hl.known _ hid
    simpa using hid

private theorem requestId_of_await_ok {b : Switchboard} {t : TableId} {id : Ident} {bound : Span} {a : Awaited}
    (h : (b.await t id bound).1 = .ok a) : a.requestId = id := by
  simp only [Switchboard.await] at h
  split at h
  · cases h
    rfl
  · cases h

/-- A command that is posted under a new identifier keeps the tables as they should be. -/
private theorem Inv.post (h : Inv used p) {now : Nat} {id : Ident} {wait : Span} {t : TableId} (hid : id ∉ used) :
    Inv (used ++ [id]) (p.step (.post now id wait t)) := by
  by_cases ht : t < p.board.tables.length
  · have hl := lasts_deferRegistered p.board now id wait t
    rw [Traffic.step, if_pos ht]
    refine ⟨h.coherent.deferRegistered ht fun hm => hid (h.known id hm), ?_, ?_⟩
    · intro i hi
      rcases hl.known i hi with hi | hi
      · exact List.mem_append_left _ (h.known i hi)
      · exact List.mem_append_right _ hi
    · intro a ha
      obtain ⟨hu, hn⟩ := h.awaited a ha
      refine ⟨List.mem_append_left _ hu, fun hm => ?_⟩
      rcases hl.known _ hm with hm | hm
      · exact hn hm
      · rw [List.mem_singleton] at hm
        exact hid (hm ▸ hu)
  · rw [Traffic.step, if_neg ht]
    exact h.of_lasts h.coherent (.refl _) (fun _ ha => ha) _

/-- A request that is awaited under a new identifier keeps the tables as they should be. -/
private theorem Inv.await (h : Inv used p) {id : Ident} {bound : Span} {t : TableId} (hid : id ∉ used) :
    Inv (used ++ [id]) (p.step (.await id bound t)) := by
  by_cases ht : t < p.board.tables.length
  · have hn : id ∉ p.board.requestIds := fun hm => hid (h.known id hm)
    have hl := lasts_await p.board t id bound
    have hi := h.of_lasts (h.coherent.await ht hn bound) hl (fun _ ha => ha) [id]
    rw [Traffic.step, if_pos ht]
    -- only a request that its table takes is awaited
    split
    · rename_i a board hp
      rw [hp] at hi hl
      have ha : a.requestId = id := requestId_of_await_ok (congrArg Prod.fst hp)
      refine ⟨hi.coherent, hi.known, fun a' hm => ?_⟩
      rcases List.mem_append.mp hm with hm | hm
      · exact hi.awaited a' hm
      · rw [List.mem_singleton] at hm
        subst hm
        refine ⟨List.mem_append_right _ (ha ▸ List.mem_singleton_self _), fun hm => hn ?_⟩
        rw [ha] at hm
        simpa using hl.known id hm
    · rename_i hp
      rw [hp] at hi
      exact hi
  · rw [Traffic.step, if_neg ht]
    exact h.of_lasts h.coherent (.refl _) (fun _ ha => ha) _

/-- Every operation keeps the tables as they should be, if the request that it brings has an identifier of its own. -/
theorem Inv.step (h : Inv used p) (op : Operation) (hop : ∀ id, op.requestId? = some id → id ∉ used) :
    Inv (used ++ op.requestId?.toList) (p.step op) := by
  cases op with
  | openTable => exact h.of_lasts h.coherent.newTable (lasts_newTable _) (fun _ ha => ha) _
  | post now id wait t => exact h.post (hop id rfl)
  | await id bound t => exact h.await (hop id rfl)
  | receive t reply => exact h.of_lasts (h.coherent.receive t reply) (lasts_receive _ t reply) (fun _ ha => ha) _
  | timeOut n =>
    simp only [Traffic.step]
    split
    · rename_i a ha
      have hn := (h.awaited a (List.mem_of_getElem? ha)).2
      exact h.of_lasts (h.coherent.timeOut a hn) (lasts_timeOut _ a) (fun _ => List.mem_of_mem_eraseIdx) _
    · exact h.of_lasts h.coherent (.refl _) (fun _ ha => ha) _
  | expireDue second =>
    exact h.of_lasts (h.coherent.expireDue second) (lasts_expireDue _ second) (fun _ ha => ha) _
  | teardown t =>
    exact h.of_lasts (h.coherent.drainWith t _) (lasts_drainWith _ t _) (fun _ ha => ha) _

private theorem lasts_step (p : Traffic) (op : Operation) :
    p.board.Lasts op.requestId?.toList (p.step op).board := by
  cases op with
  | openTable => exact lasts_newTable _
  | post now id wait t =>
    rw [Traffic.step]
    split
    · exact lasts_deferRegistered _ _ _ _ _
    · exact (Lasts.refl _).mono (List.nil_subset _)
  | await id bound t =>
    have hl := lasts_await p.board t id bound
    rw [Traffic.step]
    split
    · split
      all_goals
        rename_i hp
        rw [hp] at hl
        exact hl.mono (List.nil_subset _)
    · exact (Lasts.refl _).mono (List.nil_subset _)
  | receive t reply => exact lasts_receive _ t reply
  | timeOut n =>
    simp only [Traffic.step]
    split
    · exact lasts_timeOut _ _
    · exact .refl _
  | expireDue second => exact lasts_expireDue _ second
  | teardown t => exact lasts_drainWith _ t _

/-- A command is recorded with the identifier, the wait and the session that it is posted with. -/
private theorem entry_of_post (now : Nat) (id : Ident) (wait : Span) {t : TableId} (ht : t < p.board.tables.length) :
    ∃ x : Entry, (p.step (.post now id wait t)).board.entries[p.board.entries.length]? = some x ∧
      x.disarmed = ⟨id, Wheel.deadline now wait, wait, t, false⟩ := by
  rw [Traffic.step, if_pos ht]
  exact (entry_deferRegistered p.board now id wait t).2

private theorem closed_of_teardown (t : TableId) (ht : t < p.board.tables.length) :
    ((p.step (.teardown t)).board.table t).closed = true :=
  closed_drainWith ht _

end Step

/-! ### A whole run -/

private theorem Inv.run {used : List Ident} {p : Traffic} (h : Inv used p) (ops : List Operation)
    (hn : (used ++ ops.filterMap (·.requestId?)).Nodup) : Inv (used ++ ops.filterMap (·.requestId?)) (p.run ops) := by
  induction ops generalizing used p with
  | nil => simpa using h
  | cons op ops ih =>
    have he : used ++ (op :: ops).filterMap (·.requestId?) =
        (used ++ op.requestId?.toList) ++ ops.filterMap (·.requestId?) := by
      cases hr : op.requestId? <;> simp [hr]
    rw [he] at hn ⊢
    -- the identifiers used so far are distinct from those still to come
    refine ih (h.step op fun id hid hu => ?_) hn
    have hd := (List.nodup_append.mp (List.nodup_append.mp hn).1).2.2
    exact hd id hu id (by simp [hid]) rfl

private theorem lasts_run (p : Traffic) (ops : List Operation) :
    p.board.Lasts (ops.filterMap (·.requestId?)) (p.run ops).board := by
  induction ops generalizing p with
  | nil => exact .refl _
  | cons op ops ih =>
    have he : (op :: ops).filterMap (·.requestId?) = op.requestId?.toList ++ ops.filterMap (·.requestId?) := by
      cases hr : op.requestId? <;> simp [hr]
    rw [he]
    exact (lasts_step p op).append (ih _)

/-- After any run of operations whose requests have pairwise distinct identifiers: every posted command is recorded;
its callback is in its slot exactly when the command is on the wheel at its own deadline, exactly when it is in its own
table, and exactly when it has not run; one whose callback has run is in no bucket and in no table. No bucket is empty,
the wheel counts the callbacks that have not run, and a table that was drained is empty and closed. -/
theorem wheel_and_tables_agree (ops : List Operation) (hd : (ops.filterMap (·.requestId?)).Nodup) :
    (∀ before now id wait t after, ops = before ++ .post now id wait t :: after →
      t < (run {} before).board.tables.length →
      ∃ x : Entry, (run {} ops).board.entries[(run {} before).board.entries.length]? = some x ∧
        x.disarmed = ⟨id, Wheel.deadline now wait, wait, t, false⟩) ∧
    (∀ (e : EntryId) (x : Entry), (run {} ops).board.entries[e]? = some x →
      (x.armed = true ↔ (run {} ops).board.wheel.find? x.deadline x.requestId = some e) ∧
      (x.armed = true ↔ (run {} ops).board.holder? x.table x.requestId = some (.entry e)) ∧
      (x.armed = true ↔ (run {} ops).board.submissions e = []) ∧
      ((run {} ops).board.submissions e ≠ [] → (∀ d i, (run {} ops).board.wheel.find? d i ≠ some e) ∧
        ∀ t i, (run {} ops).board.holder? t i ≠ some (.entry e))) ∧
    (∀ bucket ∈ (run {} ops).board.wheel, bucket.2 ≠ []) ∧
    (run {} ops).board.wheel.size =
      (List.range (run {} ops).board.entries.length).countP (fun e => ((run {} ops).board.submissions e).isEmpty) ∧
    (∀ before t after, ops = before ++ .teardown t :: after → t < (run {} before).board.tables.length →
      ((run {} ops).board.table t).closed = true ∧ ((run {} ops).board.table t).entries = []) := by
  have hc : (run {} ops).board.Coherent [] [] := (inv_start.run ops hd).coherent
  refine ⟨?_, ?_, hc.sound.tidy.filled, hc.size_wheel, ?_⟩
  · intro before now id wait t after hops ht
    obtain ⟨x, hx, hxd⟩ := entry_of_post now id wait ht
    obtain ⟨x', hx', hxd'⟩ := (lasts_run _ after).kept _ x hx
    rw [hops, run_append, run_cons]
    exact ⟨x', hx', hxd'.trans hxd⟩
  · intro e x hx
    refine ⟨hc.armed_iff_find? hx, hc.armed_iff_holder? hx, hc.armed_iff hx, fun hs => ⟨?_, ?_⟩⟩
    · intro d i hf
      have ha := (hc.armedOnWheel d i e hf).1
      rw [isArmed_eq hx] at ha
      exact hs ((hc.armed_iff hx).mp ha)
    · intro t i hf
      have ha := (hc.armedInTable t i e hf).1
      rw [isArmed_eq hx] at ha
      exact hs ((hc.armed_iff hx).mp ha)
  · intro before t after hops ht
    have hclosed := (lasts_run _ after).closed t (closed_of_teardown t ht)
    rw [← run_cons, ← run_append, ← hops] at hclosed
    exact ⟨hclosed, (hc.sound.orderly t).empty hclosed⟩

/-- Three commands and an awaited request on two sessions. One command is answered, one times out, and one fails with
its session; then another one is posted on the closed session. -/
def mixed : List Operation :=
  [.openTable, .openTable, .post 0 (.ofHalves 1 0) .zero 0, .post 0 (.ofHalves 2 0) .zero 0,
    .post 3 (.ofHalves 3 0) .zero 1, .await (.ofHalves 4 0) .zero 1,
    .receive 0 (.ping ⟨.ofHalves 1 0, 0⟩), .expireDue 1, .timeOut 0, .post 3 (.ofHalves 5 0) .zero 0, .teardown 1,
    .post 4 (.ofHalves 6 0) .zero 1]

/-- After it one callback is left, that of the command posted last on the session that is still open. -/
theorem mixed_leaves_one_command :
    (mixed.filterMap (·.requestId?)).Nodup ∧ (run {} mixed).board.wheel.find? 4 (.ofHalves 5 0) = some 3 ∧
      (run {} mixed).board.holder? 0 (.ofHalves 5 0) = some (.entry 3) ∧
      (∀ d i, (run {} mixed).board.wheel.find? d i ≠ some 4) ∧ ((run {} mixed).board.table 1).entries = [] := by
  have hd : (mixed.filterMap (·.requestId?)).Nodup := by decide
  obtain ⟨-, agree, -, -, drained⟩ := wheel_and_tables_agree mixed hd
  obtain ⟨onWheel, inTable, -, -⟩ := agree 3 ⟨.ofHalves 5 0, 4, .zero, 0, true⟩ rfl
  obtain ⟨-, -, -, gone⟩ := agree 4 ⟨.ofHalves 6 0, 5, .zero, 1, false⟩ rfl
  exact ⟨hd, onWheel.mp rfl, inTable.mp rfl, (gone (by decide)).1,
    (drained (mixed.take 10) 1 (mixed.drop 11) rfl (by decide)).2⟩

end LockService.Traffic
