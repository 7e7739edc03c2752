import LockService.Proofs.RaceInvariant

/-!
# Every callback runs once, whoever wins the race

Whoever takes a callback out of its slot carries its outcome through the remaining steps and submits it, and whoever
comes later finds the slot empty. Operations come to their ends, so in the end every callback has run exactly once or
is still in its slot and within reach (`callback_runs_exactly_once`).
-/

namespace LockService

open Switchboard

/-- The command whose callback a task is about to take, with the outcome that it is going to submit. -/
def Switchboard.reach? (b : Switchboard) : Task → Option (EntryId × Outcome Reply)
  | .complete e outcome => some (e, outcome)
  | .expire e => b.entries[e]?.map fun x => (e, .error (.timeout x.wait))
  | _ => none

namespace Race

/-! ### Claims last -/

private theorem submissions_errandStep {b : Switchboard} {a : Errand} {e : EntryId}
    (h : ∀ outcome, a ≠ .task (.submit e outcome)) : (a.step b).2.submissions e = b.submissions e := by
  cases a with
  | enrol e' =>
    cases hx : b.entries[e']? with
    | none => simp [Errand.step, hx]
    | some x =>
      have := submissions_register b x.table x.requestId (.entry e') e
      simp only [Errand.step, hx]
      split <;> rename_i hr <;> rw [hr] at this <;> exact this
  | wake w o => simp [Errand.step, submissions_deliver, Delivery.submission?]
  | task t =>
    cases t with
    | complete e' o =>
      have := submissions_takeCallback b e' e
      simp only [Errand.step, Task.step]
      split <;> rename_i hr <;> rw [hr] at this <;> exact this
    | unpark e' o => simp [Errand.step, Task.step]
    | expire e' =>
      have := submissions_takeCallback b e' e
      simp only [Errand.step, Task.step]
      split <;> rename_i hr <;> rw [hr] at this <;> exact this
    | withdraw e' o => simp [Errand.step, Task.step]
    | submit e' o =>
      have hne : e' ≠ e := by
        rintro rfl
        exact h o rfl
      simp [Errand.step, Task.step, submissions_deliver, Delivery.submission?, hne]

private theorem mem_claims_errandStep {b : Switchboard} {a : Errand} {rest : List Errand} {e : EntryId}
    {outcome : Outcome Reply} (h : outcome ∈ claims ⟨b, a :: rest⟩ e) :
    outcome ∈ claims ⟨(a.step b).2, (a.step b).1.toList ++ rest⟩ e := by
  have hc : outcome ∈ b.submissions e ∨ a.carried? e = some outcome ∨ outcome ∈ rest.filterMap (·.carried? e) := by
    rw [claims, List.mem_append, List.filterMap_cons] at h
    cases hc : a.carried? e with
    | none => simpa [hc] using h
    | some o => simpa [hc, eq_comm] using h
  rw [claims, List.mem_append, List.filterMap_append, List.mem_append]
  -- submitting turns a carried outcome into one that has run; every other step only hands it on
  by_cases ha : ∃ o, a = .task (.submit e o)
  · obtain ⟨o, rfl⟩ := ha
    have hs : ((Errand.task (.submit e o)).step b).2.submissions e = b.submissions e ++ [o] := by
      simp [Errand.step, Task.step, submissions_deliver, Delivery.submission?]
    rw [hs, List.mem_append]
    rcases hc with hm | hm | hm
    · exact .inl (.inl hm)
    · exact .inl (.inr (by simpa [Errand.carried?, eq_comm] using hm))
    · exact .inr (.inr hm)
  · rw [submissions_errandStep fun o ho => ha ⟨o, ho⟩]
    rcases hc with hm | hm | hm
    · exact .inl hm
    · refine .inr (.inl ?_)
      cases a with
      | enrol e' => cases hm
      | wake w o => cases hm
      | task t =>
        cases t with
        | complete e' o => cases hm
        | unpark e' o => simpa [Errand.step, Task.step, Errand.carried?] using hm
        | expire e' => cases hm
        | withdraw e' o => simpa [Errand.step, Task.step, Errand.carried?] using hm
        | submit e' o =>
          by_cases he : e' = e
          · exact absurd ⟨o, he ▸ rfl⟩ ha
          · simp [Errand.carried?, he] at hm
    · exact .inr (.inr hm)

private theorem mem_claims_perm {b : Switchboard} {u u' : List Errand} (hp : u.Perm u') {e : EntryId}
    {outcome : Outcome Reply} (h : outcome ∈ claims ⟨b, u⟩ e) : outcome ∈ claims ⟨b, u'⟩ e := by
  rw [claims, List.mem_append] at h ⊢
  exact h.imp_right (hp.filterMap _).mem_iff.mp

/-- Whatever happens, an outcome for which a callback has been taken stays the one it runs on. -/
private theorem mem_claims_step {p : Race} {e : EntryId} {outcome : Outcome Reply} (h : outcome ∈ p.claims e)
    (event : Event) : outcome ∈ (p.step event).claims e := by
  have more : ∀ {b : Switchboard} (new), b.delivered = p.board.delivered →
      outcome ∈ claims ⟨b, p.underway ++ new⟩ e := by
    intro b new hb
    rw [claims, List.mem_append] at h ⊢
    rw [List.filterMap_append, List.mem_append, submissions, hb]
    exact h.imp_right .inl
  cases event with
  | openTable =>
    have := more (b := p.board.newTable.2) [] rfl
    rwa [List.append_nil] at this
  | defer now id wait t =>
    by_cases ht : t < p.board.tables.length
    · have hs : p.step (.defer now id wait t) =
          ⟨(p.board.defer now id wait t).2, p.underway ++ [.enrol p.board.entries.length]⟩ := if_pos ht
      rw [hs]
      exact more _ rfl
    · have hs : p.step (.defer now id wait t) = p := if_neg ht
      rwa [hs]
  | receive t reply => exact more _ rfl
  | popDue second => exact more _ rfl
  | drain t => exact more _ rfl
  | advance n =>
    cases ha : p.underway[n]? with
    | none => simpa [Race.step, ha] using h
    | some a =>
      have hs : p.step (.advance n) = ⟨(a.step p.board).2, p.underway.eraseIdx n ++ (a.step p.board).1.toList⟩ := by
        simp [Race.step, ha]
      obtain ⟨hn, rfl⟩ := List.getElem?_eq_some_iff.mp ha
      rw [hs]
      exact mem_claims_perm List.perm_append_comm
        (mem_claims_errandStep (mem_claims_perm (List.getElem_cons_eraseIdx_perm hn).symm h))

private theorem mem_claims_run {p : Race} {e : EntryId} {outcome : Outcome Reply} (h : outcome ∈ p.claims e)
    (events : List Event) : outcome ∈ (p.run events).claims e := by
  induction events generalizing p with
  | nil => exact h
  | cons event events ih => exact ih (mem_claims_step h event)

/-! ### Operations end -/

/-- How many things an operation has at most left to do. -/
def Errand.left : Errand → Nat
  | .enrol _ => 4
  | .wake _ _ => 1
  | .task (.complete _ _) => 3
  | .task (.unpark _ _) => 2
  | .task (.expire _) => 3
  | .task (.withdraw _ _) => 2
  | .task (.submit _ _) => 1

private def leftOver : List Errand → Nat
  | [] => 0
  | a :: rest => Errand.left a + leftOver rest

private theorem leftOver_append (u v : List Errand) : leftOver (u ++ v) = leftOver u + leftOver v := by
  induction u with
  | nil => simp [leftOver]
  | cons a rest ih =>
    simp only [List.cons_append, leftOver, ih]
    omega

private theorem leftOver_errandStep (b : Switchboard) (a : Errand) :
    leftOver (a.step b).1.toList < Errand.left a := by
  cases a with
  | enrol e =>
    simp only [Errand.step]
    split
    · split <;> simp [leftOver, Errand.left, Errand.resolving]
    · simp [leftOver, Errand.left]
  | wake w o => simp [Errand.step, leftOver, Errand.left]
  | task t =>
    cases t with
    | complete e o =>
      simp only [Errand.step, Task.step]
      split <;> simp [leftOver, Errand.left]
    | unpark e o => simp [Errand.step, Task.step, leftOver, Errand.left]
    | expire e =>
      simp only [Errand.step, Task.step]
      split <;> simp [leftOver, Errand.left]
    | withdraw e o => simp [Errand.step, Task.step, leftOver, Errand.left]
    | submit e o => simp [Errand.step, Task.step, leftOver, Errand.left]

/-- However a race has gone, its operations come to their ends when they go on. -/
private theorem exists_quiet (p : Race) : ∃ n, (p.run (List.replicate n (.advance 0))).underway = [] := by
  -- the first operation goes on again and again; what is left to do gets less with every step
  induction hk : leftOver p.underway using Nat.strong_induction_on generalizing p with
  | _ k ih =>
    obtain ⟨b, u⟩ := p
    cases u with
    | nil => exact ⟨0, rfl⟩
    | cons a rest =>
      have hs : step ⟨b, a :: rest⟩ (.advance 0) = ⟨(a.step b).2, rest ++ (a.step b).1.toList⟩ := rfl
      have hlt : leftOver (rest ++ (a.step b).1.toList) < k := by
        have := leftOver_errandStep b a
        have hk : Errand.left a + leftOver rest = k := hk
        rw [leftOver_append]
        omega
      obtain ⟨n, hn⟩ := ih _ hlt ⟨(a.step b).2, rest ++ (a.step b).1.toList⟩ rfl
      exact ⟨n + 1, by rw [List.replicate_succ, run_cons, hs]; exact hn⟩

/-! ### The race is fair -/

private theorem claims_of_reach {b : Switchboard} {t : Task} {e : EntryId} {outcome : Outcome Reply}
    {rest : List Errand} (hr : b.reach? t = some (e, outcome)) (ha : b.isArmed e = true) :
    outcome ∈ claims ⟨((Errand.task t).step b).2, ((Errand.task t).step b).1.toList ++ rest⟩ e := by
  obtain ⟨x, hx, hxa⟩ := armed_of_isArmed ha
  rw [claims, List.mem_append]
  right
  cases t with
  | complete e' o =>
    cases hr
    simp [Errand.step, Task.step, takeCallback_of_armed hx hxa, Errand.carried?]
  | expire e' =>
    obtain ⟨y, hy, he⟩ := Option.map_eq_some_iff.mp hr
    cases he
    rw [hx] at hy
    cases hy
    simp [Errand.step, Task.step, takeCallback_of_armed hx hxa, Errand.carried?]
  | unpark e' o => cases hr
  | withdraw e' o => cases hr
  | submit e' o => cases hr

private theorem step_of_reach {b : Switchboard} {t : Task} {e : EntryId} {outcome : Outcome Reply}
    (hr : b.reach? t = some (e, outcome)) (ha : b.isArmed e = false) : (Errand.task t).step b = (none, b) := by
  cases t with
  | complete e' o =>
    cases hr
    simp [Errand.step, Task.step, takeCallback_of_not_armed ha]
  | expire e' =>
    obtain ⟨y, -, he⟩ := Option.map_eq_some_iff.mp hr
    cases he
    simp [Errand.step, Task.step, takeCallback_of_not_armed ha]
  | unpark e' o => cases hr
  | withdraw e' o => cases hr
  | submit e' o => cases hr

private theorem Inv.length_claims_le {p : Race} (h : p.Inv) (e : EntryId) : (p.claims e).length ≤ 1 := by
  rw [h.once e]
  split <;> omega

/-- The one outcome on which a callback was submitted is the only one it runs on. -/
private theorem Inv.claims_eq {p : Race} (h : p.Inv) {e : EntryId} {outcome : Outcome Reply}
    (hm : outcome ∈ p.claims e) : p.claims e = [outcome] := by
  have hle := h.length_claims_le e
  rcases hl : p.claims e with _ | ⟨o, _ | ⟨o', l⟩⟩
  · rw [hl] at hm
    cases hm
  · rw [hl] at hm
    rw [List.mem_singleton.mp hm]
  · rw [hl] at hle
    simp at hle

/-- When no operation is under way, every callback has run or is within reach. -/
theorem Inv.quiet {p : Race} (h : p.Inv) (hq : p.underway = []) {e : EntryId} {x : Entry}
    (hx : p.board.entries[e]? = some x) :
    if x.armed then
      p.board.submissions e = [] ∧ p.board.wheel.find? x.deadline x.requestId = some e ∧
        p.board.holder? x.table x.requestId = some (.entry e)
    else ∃ outcome, p.board.submissions e = [outcome] := by
  have ho := h.once e
  rw [claims, hq, List.filterMap_nil, List.append_nil, hx, Option.map_some] at ho
  split
  · rename_i ha
    rw [ha, if_neg (by simp)] at ho
    refine ⟨List.length_eq_zero_iff.mp ho, ?_, ?_⟩
    · rcases h.awaitsDeadline e x hx ha with hf | hm
      · exact hf
      · rw [hq] at hm
        cases hm
    · rcases h.awaitsAnswer e x hx ha with hp | hm | ⟨o, hm⟩
      · exact hp
      · rw [hq] at hm
        cases hm
      · rw [hq] at hm
        cases hm
  · rename_i ha
    rw [Bool.not_eq_true] at ha
    rw [ha, if_pos rfl] at ho
    exact List.length_eq_one_iff.mp ho

/-- In a race of any number of callback commands with pairwise distinct identifiers, no callback ever runs twice.
Whoever reaches for a callback that is in its slot makes it run on its own outcome, and whoever comes later changes
nothing and is done. Operations come to their ends; and when none is under way, every callback has either run once, or
is in its slot and stands both on the wheel, at its own deadline, and in its own table. -/
theorem callback_runs_exactly_once (events : List Event) (hd : (events.filterMap (·.requestId?)).Nodup) :
    (∀ e, ((run {} events).board.submissions e).length ≤ 1) ∧
    (∀ before n after t e outcome, events = before ++ .advance n :: after →
      (run {} before).underway[n]? = some (.task t) → (run {} before).board.reach? t = some (e, outcome) →
        if (run {} before).board.isArmed e then (run {} events).claims e = [outcome]
        else run {} (before ++ [.advance n]) =
          { run {} before with underway := (run {} before).underway.eraseIdx n }) ∧
    (∃ n, (run {} (events ++ List.replicate n (.advance 0))).underway = []) ∧
    ((run {} events).underway = [] → ∀ (e : EntryId) (x : Entry), (run {} events).board.entries[e]? = some x →
      if x.armed then
        (run {} events).board.submissions e = [] ∧
        (run {} events).board.wheel.find? x.deadline x.requestId = some e ∧
        (run {} events).board.holder? x.table x.requestId = some (.entry e)
      else ∃ outcome, (run {} events).board.submissions e = [outcome]) := by
  have hi : (run {} events).Inv := inv_start.run (by simpa [requestIds] using hd)
  refine ⟨?_, ?_, ?_, ?_⟩
  · intro e
    refine Nat.le_trans ?_ (hi.length_claims_le e)
    rw [claims, List.length_append]
    omega
  · intro before n after t e outcome hev hn hr
    have hstep : (run {} before).step (.advance n) =
        ⟨((Errand.task t).step (run {} before).board).2,
          (run {} before).underway.eraseIdx n ++ ((Errand.task t).step (run {} before).board).1.toList⟩ := by
      simp [Race.step, hn]
    split
    · rename_i ha
      -- the claim is made now and lasts, and there is never a second one
      have hm : outcome ∈ ((run {} before).step (.advance n)).claims e := by
        rw [hstep]
        exact mem_claims_perm List.perm_append_comm (claims_of_reach hr ha)
      apply hi.claims_eq
      rw [hev, run_append, run_cons]
      exact mem_claims_run hm after
    · rename_i ha
      rw [run_append, run_cons, run_nil, hstep, step_of_reach hr (by simpa using ha)]
      simp
  · obtain ⟨n, hn⟩ := exists_quiet (run {} events)
    exact ⟨n, by rw [run_append]; exact hn⟩
  · exact fun hq e x hx => hi.quiet hq hx

/-- Two commands come due together. The answer to the first arrives just then and takes its callback before the wheel
does; the wheel gets the second one. -/
def photoFinish : List Event :=
  [.openTable, .defer 0 (.ofHalves 1 0) .zero 0, .advance 0, .defer 0 (.ofHalves 2 0) .zero 0, .advance 0,
    .popDue 1, .receive 0 (.ping ⟨.ofHalves 1 0, 0⟩),
    .advance 2, .advance 0, .advance 0, .advance 0, .advance 0, .advance 0, .advance 0]

/-- Each callback runs once, and the first one on its answer. -/
theorem photoFinish_runs_each_callback_once :
    (photoFinish.filterMap (·.requestId?)).Nodup ∧ (run {} photoFinish).underway = [] ∧
    (∀ e, ((run {} photoFinish).board.submissions e).length ≤ 1) ∧
    (run {} photoFinish).claims 0 = [.ok (.ping ⟨.ofHalves 1 0, 0⟩)] ∧
    ∃ outcome, (run {} photoFinish).board.submissions 1 = [outcome] := by
  have hd : (photoFinish.filterMap (·.requestId?)).Nodup := by decide
  obtain ⟨once, fair, -, quiet⟩ := callback_runs_exactly_once photoFinish hd
  refine ⟨hd, rfl, once, ?_, quiet rfl 1 ⟨.ofHalves 2 0, 1, .zero, 0, false⟩ rfl⟩
  exact fair (photoFinish.take 7) 2 (photoFinish.drop 8) (.complete 0 (.ok (.ping ⟨.ofHalves 1 0, 0⟩))) 0 _ rfl rfl rfl

end Race

end LockService
