import LockService.Pending.Race
import LockService.Proofs.Switchboard
import Mathlib.Data.List.Perm.Basic

/-!
# Where a callback is in the course of a race

At every moment of a race a callback is in its slot, or carried by exactly one operation, or has run exactly once
(`Inv.once`), and one that is still in its slot can be reached from the wheel and from its table, or by an operation
that has already been sent for it. Every event keeps this (`Inv.step`).
-/

namespace LockService

open Switchboard

/-- The outcome for which an operation under way carries the callback of a command. -/
def Errand.carried? (e : EntryId) : Errand → Option (Outcome Reply)
  | task (.unpark e' outcome) => if e' = e then some outcome else none
  | task (.withdraw e' outcome) => if e' = e then some outcome else none
  | task (.submit e' outcome) => if e' = e then some outcome else none
  | _ => none

namespace Race

/-- The outcomes for which the callback of a command has been taken, whether it has run by now or is on its way. -/
def claims (p : Race) (e : EntryId) : List (Outcome Reply) :=
  p.board.submissions e ++ p.underway.filterMap (·.carried? e)

/-- What holds at every moment of a race in which no two commands share an identifier. -/
structure Inv (p : Race) : Prop where
  sound : p.board.Sound
  awaitsDeadline : ∀ (e : EntryId) (x : Entry), p.board.entries[e]? = some x → x.armed = true →
    p.board.wheel.find? x.deadline x.requestId = some e ∨ .task (.expire e) ∈ p.underway
  awaitsAnswer : ∀ (e : EntryId) (x : Entry), p.board.entries[e]? = some x → x.armed = true →
    p.board.holder? x.table x.requestId = some (.entry e) ∨ .enrol e ∈ p.underway ∨
      ∃ outcome, .task (.complete e outcome) ∈ p.underway
  once : ∀ e, (p.claims e).length = if p.board.entries[e]?.map (·.armed) = some false then 1 else 0

theorem inv_start : Inv {} := by
  refine ⟨sound_empty, ?_, ?_, fun e => rfl⟩
  · intro e x h
    cases h
  · intro e x h
    cases h

/-- The order of the operations under way does not matter. -/
private theorem Inv.perm {b : Switchboard} {u u' : List Errand} (h : Inv ⟨b, u⟩) (hp : u.Perm u') : Inv ⟨b, u'⟩ where
  sound := h.sound
  awaitsDeadline e x hx ha := (h.awaitsDeadline e x hx ha).imp_right hp.mem_iff.mp
  awaitsAnswer e x hx ha := by
    rcases h.awaitsAnswer e x hx ha with hh | he | ⟨outcome, hc⟩
    · exact .inl hh
    · exact .inr (.inl (hp.mem_iff.mp he))
    · exact .inr (.inr ⟨outcome, hp.mem_iff.mp hc⟩)
  once e := by
    rw [← h.once e]
    simp only [claims, List.length_append, (hp.filterMap (·.carried? e)).length_eq]

private theorem Inv.not_armed_of_carried {b : Switchboard} {a : Errand} {rest : List Errand} (h : Inv ⟨b, a :: rest⟩)
    {e : EntryId} {outcome : Outcome Reply} (hc : a.carried? e = some outcome) :
    ∃ x, b.entries[e]? = some x ∧ x.armed = false := by
  have hlen := h.once e
  simp only [claims, List.filterMap_cons, hc, List.length_append, List.length_cons] at hlen
  split at hlen
  · rename_i ha
    exact Option.map_eq_some_iff.mp ha
  · omega

/-! ### What one step of an operation keeps -/

section Advance

variable {b : Switchboard} {e : EntryId} {x : Entry} {outcome : Outcome Reply} {rest : List Errand}

/-- An operation that carries no callback ends; no callback in its slot has relied on it. -/
private theorem Inv.finish {a : Errand} (h : Inv ⟨b, a :: rest⟩) (hc : ∀ e, a.carried? e = none)
    (hd : ∀ e, a = .task (.expire e) → b.isArmed e = false)
    (ha : ∀ e, (a = .enrol e ∨ ∃ outcome, a = .task (.complete e outcome)) → b.isArmed e = false) :
    Inv ⟨b, rest⟩ where
  sound := h.sound
  awaitsDeadline e x hx hxa := by
    refine (h.awaitsDeadline e x hx hxa).imp_right fun hm => ?_
    rcases List.mem_cons.mp hm with he | hm
    · rw [← isArmed_eq hx, hd e he.symm] at hxa
      cases hxa
    · exact hm
  awaitsAnswer e x hx hxa := by
    have no : ¬ (a = .enrol e ∨ ∃ outcome, a = .task (.complete e outcome)) := fun he => by
      rw [← isArmed_eq hx, ha e he] at hxa
      cases hxa
    rcases h.awaitsAnswer e x hx hxa with hh | hm | ⟨outcome, hm⟩
    · exact .inl hh
    · rcases List.mem_cons.mp hm with he | hm
      · exact absurd (.inl he.symm) no
      · exact .inr (.inl hm)
    · rcases List.mem_cons.mp hm with he | hm
      · exact absurd (.inr ⟨outcome, he.symm⟩) no
      · exact .inr (.inr ⟨outcome, hm⟩)
  once e := by
    rw [← h.once e]
    simp [claims, hc e]

/-- A refused registration goes on with the news that the connection is closed. -/
private theorem Inv.refuse (h : Inv ⟨b, .enrol e :: rest⟩) :
    Inv ⟨b, .task (.complete e outcome) :: rest⟩ where
  sound := h.sound
  awaitsDeadline e' x hx ha := by
    refine (h.awaitsDeadline e' x hx ha).imp_right fun hm => ?_
    simpa using hm
  awaitsAnswer e' x hx ha := by
    rcases h.awaitsAnswer e' x hx ha with hh | hm | ⟨outcome', hm⟩
    · exact .inl hh
    · rcases List.mem_cons.mp hm with he | hm
      · cases he
        exact .inr (.inr ⟨outcome, List.mem_cons_self⟩)
      · exact .inr (.inl (List.mem_cons_of_mem _ hm))
    · exact .inr (.inr ⟨outcome', List.mem_cons_of_mem _ (by simpa using hm)⟩)
  once e' := h.once e'

private theorem Inv.enter (h : Inv ⟨b, .enrol e :: rest⟩) (hx : b.entries[e]? = some x)
    (hc : (b.table x.table).closed = false) :
    Inv ⟨(b.register x.table x.requestId (.entry e)).2, rest⟩ where
  sound := h.sound.register hx
  awaitsDeadline e' x' hx' ha := by
    rw [entries_register] at hx'
    rw [wheel_register]
    exact (h.awaitsDeadline e' x' hx' ha).imp_right fun hm => by simpa using hm
  awaitsAnswer e' x' hx' ha := by
    rw [entries_register] at hx'
    rw [holder?_register (h.sound.placed e x hx) hc]
    split
    · rename_i he
      rw [h.sound.distinct e' e x' x hx' hx he.2]
      exact .inl rfl
    · rename_i hne
      rcases h.awaitsAnswer e' x' hx' ha with hh | hm | ⟨outcome, hm⟩
      · exact .inl hh
      · rcases List.mem_cons.mp hm with he | hm
        · cases he
          rw [hx] at hx'
          cases hx'
          exact absurd ⟨rfl, rfl⟩ hne
        · exact .inr (.inl hm)
      · exact .inr (.inr ⟨outcome, by simpa using hm⟩)
  once e' := by
    rw [entries_register, ← h.once e']
    simp [claims, Errand.carried?]

/-- A callback that is taken is carried on by whoever took it. -/
private theorem Inv.catch {a a' : Errand} (h : Inv ⟨b, a :: rest⟩) (hx : b.entries[e]? = some x) (hxa : x.armed = true)
    (hd : ∀ e', a = .task (.expire e') → e' = e)
    (ha : ∀ e', (a = .enrol e' ∨ ∃ outcome, a = .task (.complete e' outcome)) → e' = e)
    (hc : ∀ e', a.carried? e' = none) (hc' : ∀ e', a'.carried? e' = if e = e' then some outcome else none) :
    Inv ⟨{ b with entries := b.entries.set e x.disarmed }, a' :: rest⟩ where
  sound := h.sound.disarm hx
  awaitsDeadline e' x' hx' hxa' := by
    obtain ⟨hne, hx'⟩ := getElem?_of_armed_set hx' hxa'
    refine (h.awaitsDeadline e' x' hx' hxa').imp_right fun hm => ?_
    rcases List.mem_cons.mp hm with he | hm
    · exact absurd (hd e' he.symm).symm hne
    · exact List.mem_cons_of_mem _ hm
  awaitsAnswer e' x' hx' hxa' := by
    obtain ⟨hne, hx'⟩ := getElem?_of_armed_set hx' hxa'
    rcases h.awaitsAnswer e' x' hx' hxa' with hh | hm | ⟨outcome, hm⟩
    · exact .inl hh
    · rcases List.mem_cons.mp hm with he | hm
      · exact absurd (ha e' (.inl he.symm)).symm hne
      · exact .inr (.inl (List.mem_cons_of_mem _ hm))
    · rcases List.mem_cons.mp hm with he | hm
      · exact absurd (ha e' (.inr ⟨_, he.symm⟩)).symm hne
      · exact .inr (.inr ⟨outcome, List.mem_cons_of_mem _ hm⟩)
  once e' := by
    have hlen := h.once e'
    simp only [claims, List.filterMap_cons, hc e', hc' e', List.length_append] at hlen ⊢
    by_cases he : e = e'
    · subst he
      have hl := (List.getElem?_eq_some_iff.mp hx).1
      -- it was in its slot, so nobody had it before
      rw [hx, Option.map_some, hxa, if_neg (by simp)] at hlen
      rw [if_pos rfl, List.getElem?_set_self hl, Option.map_some, show x.disarmed.armed = false from rfl, if_pos rfl]
      exact congrArg (· + 1) hlen
    · rw [if_neg he, List.getElem?_set_ne he]
      exact hlen

/-- An operation that carries a callback changes only where that callback's command stands. -/
private theorem Inv.carry {b' : Switchboard} {a : Errand} (h : Inv ⟨b, a :: rest⟩) (new : List Errand)
    (hc : a.carried? e = some outcome) (hs : b'.Sound) (he : b'.entries = b.entries)
    (hw : ∀ e' x', e' ≠ e → b.entries[e']? = some x' →
      b.wheel.find? x'.deadline x'.requestId = some e' → b'.wheel.find? x'.deadline x'.requestId = some e')
    (hh : ∀ e' x', e' ≠ e → b.entries[e']? = some x' →
      b.holder? x'.table x'.requestId = some (.entry e') → b'.holder? x'.table x'.requestId = some (.entry e'))
    (ho : ∀ e', (claims ⟨b', new ++ rest⟩ e').length = (claims ⟨b, a :: rest⟩ e').length) :
    Inv ⟨b', new ++ rest⟩ := by
  -- a carried callback is out of its slot, so those that are in their slots are others
  obtain ⟨x, hx, hxa⟩ := h.not_armed_of_carried hc
  have ne : ∀ {e' x'}, b.entries[e']? = some x' → x'.armed = true → e' ≠ e := by
    rintro e' x' hx' ha rfl
    rw [hx] at hx'
    cases hx'
    rw [hxa] at ha
    cases ha
  have keep : ∀ {m : Errand}, (∀ e, m.carried? e = none) → m ∈ a :: rest → m ∈ new ++ rest := by
    intro m hm hr
    rcases List.mem_cons.mp hr with rfl | hr
    · rw [hm e] at hc
      cases hc
    · exact List.mem_append_right _ hr
  refine ⟨hs, ?_, ?_, ?_⟩
  · intro e' x' hx' ha
    rw [he] at hx'
    rcases h.awaitsDeadline e' x' hx' ha with hf | hm
    · exact .inl (hw e' x' (ne hx' ha) hx' hf)
    · exact .inr (keep (fun _ => rfl) hm)
  · intro e' x' hx' ha
    rw [he] at hx'
    rcases h.awaitsAnswer e' x' hx' ha with hp | hm | ⟨o, hm⟩
    · exact .inl (hh e' x' (ne hx' ha) hx' hp)
    · exact .inr (.inl (keep (fun _ => rfl) hm))
    · exact .inr (.inr ⟨o, keep (fun _ => rfl) hm⟩)
  · intro e'
    rw [ho e', he]
    exact h.once e'

private theorem Inv.unpark (h : Inv ⟨b, .task (.unpark e outcome) :: rest⟩) :
    Inv ⟨b.unpark e, .task (.submit e outcome) :: rest⟩ := by
  have hc : (Errand.task (.unpark e outcome)).carried? e = some outcome := if_pos rfl
  obtain ⟨x, hx, -⟩ := h.not_armed_of_carried hc
  refine h.carry [.task (.submit e outcome)] hc (h.sound.unpark e) (by rw [unpark_eq hx]) ?_ ?_ ?_
  · intro e' x' hne hx' hf
    rw [unpark_eq hx, Wheel.find?_remove h.sound.tidy, if_neg]
    · exact hf
    · exact fun hd => hne (h.sound.distinct e' e x' x hx' hx hd.2)
  · intro e' x' hne hx' hp
    rw [unpark_eq hx]
    exact hp
  · intro e'
    rw [unpark_eq hx]
    rfl

private theorem Inv.withdraw (h : Inv ⟨b, .task (.withdraw e outcome) :: rest⟩) :
    Inv ⟨b.withdraw e, .task (.submit e outcome) :: rest⟩ := by
  have hc : (Errand.task (.withdraw e outcome)).carried? e = some outcome := if_pos rfl
  obtain ⟨x, hx, -⟩ := h.not_armed_of_carried hc
  refine h.carry [.task (.submit e outcome)] hc (h.sound.withdraw e) (entries_withdraw ..) ?_ ?_ ?_
  · intro e' x' hne hx' hf
    rw [wheel_withdraw]
    exact hf
  · intro e' x' hne hx' hp
    rw [holder?_withdraw h.sound hx, if_neg]
    · exact hp
    · exact fun hd => hne (h.sound.distinct e' e x' x hx' hx hd.2)
  · intro e'
    rw [claims, claims, submissions_withdraw]
    rfl

private theorem Inv.submit (h : Inv ⟨b, .task (.submit e outcome) :: rest⟩) :
    Inv ⟨b.deliver (.callback e outcome), rest⟩ := by
  have hc : (Errand.task (.submit e outcome)).carried? e = some outcome := if_pos rfl
  refine h.carry [] hc (h.sound.deliver _) rfl (fun _ _ _ _ hf => hf) (fun _ _ _ _ hp => hp) ?_
  intro e'
  simp only [claims, submissions_deliver, Delivery.submission?, Errand.carried?, List.filterMap_cons, List.nil_append,
    List.length_append]
  by_cases he : e = e'
  · rw [if_pos he]
    simp only [Option.toList_some, List.length_cons, List.length_nil]
    omega
  · rw [if_neg he]
    rfl

/-- A command enters its table, or is refused because the table is closed. -/
private theorem Inv.enrol {e : EntryId} (h : Inv ⟨b, .enrol e :: rest⟩) :
    Inv ⟨((Errand.enrol e).step b).2, ((Errand.enrol e).step b).1.toList ++ rest⟩ := by
  cases hx : b.entries[e]? with
  | none =>
    have hs : (Errand.enrol e).step b = (none, b) := by simp [Errand.step, hx]
    rw [hs]
    refine h.finish (fun _ => rfl) (fun _ he => by cases he) ?_
    rintro e' (he | ⟨o, he⟩) <;> cases he
    simp [isArmed, hx]
  | some x =>
    by_cases hc : (b.table x.table).closed = true
    · have hs : (Errand.enrol e).step b = (some (.task (.complete e (.error .connectionClosed))), b) := by
        simp [Errand.step, hx, register_of_closed hc, Errand.resolving]
      rw [hs]
      exact h.refuse
    · have hc' : (b.table x.table).closed = false := by simpa using hc
      have hs : (Errand.enrol e).step b = (none, (b.register x.table x.requestId (.entry e)).2) := by
        have hf := fst_register b x.table x.requestId (.entry e)
        rw [hc'] at hf
        simp only [Errand.step, hx]
        rw [← Prod.eta (b.register x.table x.requestId (.entry e)), hf]
        rfl
      rw [hs]
      exact h.enter hx hc'

/-- Waking a caller runs no callback. -/
private theorem Inv.wake {w : WaiterId} {o : Outcome Reply} (h : Inv ⟨b, .wake w o :: rest⟩) :
    Inv ⟨b.deliver (.waiter w o), rest⟩ := by
  have h' := h.finish (fun _ => rfl) (fun _ he => by cases he) (by rintro e' (he | ⟨o, he⟩) <;> cases he)
  refine ⟨h'.sound.deliver _, h'.awaitsDeadline, h'.awaitsAnswer, fun e => ?_⟩
  have hc : claims ⟨b.deliver (.waiter w o), rest⟩ e = claims ⟨b, rest⟩ e := by
    simp [claims, submissions_deliver, Delivery.submission?]
  exact (congrArg List.length hc).trans (h'.once e)

/-- An operation with an outcome takes the callback, or finds that another one has taken it. -/
private theorem Inv.complete {e : EntryId} {o : Outcome Reply} (h : Inv ⟨b, .task (.complete e o) :: rest⟩) :
    Inv ⟨((Errand.task (.complete e o)).step b).2, ((Errand.task (.complete e o)).step b).1.toList ++ rest⟩ := by
  by_cases ha : b.isArmed e = true
  · obtain ⟨x, hx, hxa⟩ := armed_of_isArmed ha
    have hs : (Errand.task (.complete e o)).step b =
        (some (.task (.unpark e o)), { b with entries := b.entries.set e x.disarmed }) := by
      simp [Errand.step, Task.step, takeCallback_of_armed hx hxa]
    rw [hs]
    exact h.catch hx hxa (fun _ he => by cases he) (by rintro e' (he | ⟨o, he⟩) <;> cases he; rfl)
      (fun _ => rfl) (fun _ => rfl)
  · have ha' : b.isArmed e = false := by simpa using ha
    have hs : (Errand.task (.complete e o)).step b = (none, b) := by
      simp [Errand.step, Task.step, takeCallback_of_not_armed ha']
    rw [hs]
    exact h.finish (fun _ => rfl) (fun _ he => by cases he) (by rintro e' (he | ⟨o, he⟩) <;> cases he; exact ha')

/-- The wheel takes the callback of a command that is due, or finds that it is gone. -/
private theorem Inv.expire {e : EntryId} (h : Inv ⟨b, .task (.expire e) :: rest⟩) :
    Inv ⟨((Errand.task (.expire e)).step b).2, ((Errand.task (.expire e)).step b).1.toList ++ rest⟩ := by
  by_cases ha : b.isArmed e = true
  · obtain ⟨x, hx, hxa⟩ := armed_of_isArmed ha
    have hs : (Errand.task (.expire e)).step b =
        (some (.task (.withdraw e (.error (.timeout x.wait)))), { b with entries := b.entries.set e x.disarmed }) := by
      simp [Errand.step, Task.step, takeCallback_of_armed hx hxa]
    rw [hs]
    exact h.catch hx hxa (fun _ he => by cases he; rfl) (by rintro e' (he | ⟨o, he⟩) <;> cases he)
      (fun _ => rfl) (fun _ => rfl)
  · have ha' : b.isArmed e = false := by simpa using ha
    have hs : (Errand.task (.expire e)).step b = (none, b) := by
      simp [Errand.step, Task.step, takeCallback_of_not_armed ha']
    rw [hs]
    exact h.finish (fun _ => rfl) (fun _ he => by cases he; exact ha') (by rintro e' (he | ⟨o, he⟩) <;> cases he)

/-- Whatever an operation does next keeps the invariant. -/
theorem Inv.errandStep {a : Errand} (h : Inv ⟨b, a :: rest⟩) : Inv ⟨(a.step b).2, (a.step b).1.toList ++ rest⟩ := by
  cases a with
  | enrol e => exact h.enrol
  | wake w o => exact h.wake
  | task t =>
    cases t with
    | complete e o => exact h.complete
    | unpark e o => exact h.unpark
    | expire e => exact h.expire
    | withdraw e o => exact h.withdraw
    | submit e o => exact h.submit

end Advance

/-! ### What the events keep -/

/-- Operations that begin leave every callback within reach. -/
private theorem Inv.extend {b b' : Switchboard} {u : List Errand} (h : Inv ⟨b, u⟩) (new : List Errand) (hs : b'.Sound)
    (he : b'.entries = b.entries) (hd : b'.delivered = b.delivered) (hn : ∀ m ∈ new, ∀ e, m.carried? e = none)
    (hw : ∀ (e : EntryId) (x : Entry), b.wheel.find? x.deadline x.requestId = some e →
      b'.wheel.find? x.deadline x.requestId = some e ∨ .task (.expire e) ∈ new)
    (hh : ∀ (e : EntryId) (x : Entry), b.holder? x.table x.requestId = some (.entry e) →
      b'.holder? x.table x.requestId = some (.entry e) ∨ ∃ outcome, .task (.complete e outcome) ∈ new) :
    Inv ⟨b', u ++ new⟩ where
  sound := hs
  awaitsDeadline e x hx ha := by
    rw [he] at hx
    rcases h.awaitsDeadline e x hx ha with hf | hm
    · exact (hw e x hf).imp_right (List.mem_append_right _)
    · exact .inr (List.mem_append_left _ hm)
  awaitsAnswer e x hx ha := by
    rw [he] at hx
    rcases h.awaitsAnswer e x hx ha with hp | hm | ⟨outcome, hm⟩
    · rcases hh e x hp with hp | ⟨outcome, hm⟩
      · exact .inl hp
      · exact .inr (.inr ⟨outcome, List.mem_append_right _ hm⟩)
    · exact .inr (.inl (List.mem_append_left _ hm))
    · exact .inr (.inr ⟨outcome, List.mem_append_left _ hm⟩)
  once e := by
    have none : new.filterMap (·.carried? e) = [] := List.filterMap_eq_nil_iff.mpr fun m hm => hn m hm e
    rw [he, ← h.once e, claims, claims, List.filterMap_append, none, List.append_nil, submissions, hd, submissions]

private theorem carried?_resolving (outcome : Outcome Reply) (q : Pending) (e : EntryId) :
    (Errand.resolving outcome q).carried? e = none := by
  cases q <;> rfl

private theorem Inv.openTable {p : Race} (h : p.Inv) : (p.step .openTable).Inv := by
  have := h.extend [] h.sound.newTable rfl rfl (by simp) (fun _ _ hf => .inl hf)
    (fun e x hp => .inl (by simpa [holder?] using hp))
  rwa [List.append_nil] at this

private theorem Inv.receive {p : Race} (h : p.Inv) (t : TableId) (reply : Reply) :
    (p.step (.receive t reply)).Inv := by
  have hs : p.step (.receive t reply) = ⟨(p.board.take t reply.requestId).2,
      p.underway ++ ((p.board.take t reply.requestId).1.map (Errand.resolving (.ok reply))).toList⟩ := rfl
  rw [hs]
  refine h.extend _ (h.sound.take t reply.requestId) rfl rfl ?_ (fun _ _ hf => .inl hf) ?_
  · intro m hm e
    simp only [Option.mem_toList, Option.map_eq_some_iff] at hm
    obtain ⟨q, -, rfl⟩ := hm
    exact carried?_resolving _ q e
  · intro e x hp
    rw [holder?_take]
    split
    · rename_i he
      refine .inr ⟨.ok reply, ?_⟩
      rw [fst_take, ← he.1, ← he.2, hp]
      simp [Errand.resolving]
    · exact .inl hp

private theorem Inv.popDue {p : Race} (h : p.Inv) (second : Nat) : (p.step (.popDue second)).Inv := by
  refine h.extend _ (h.sound.later second) rfl rfl ?_ ?_ (fun _ _ hp => .inl hp)
  · intro m hm e
    obtain ⟨e', -, rfl⟩ := List.mem_map.mp hm
    rfl
  · intro e x hf
    rw [Wheel.find?_later h.sound.tidy]
    split
    · rename_i hd
      exact .inr (List.mem_map.mpr ⟨e, (Wheel.mem_due_iff h.sound.tidy).mpr ⟨_, _, hd, hf⟩, rfl⟩)
    · exact .inl hf

private theorem Inv.drain {p : Race} (h : p.Inv) (t : TableId) : (p.step (.drain t)).Inv := by
  have hs : p.step (.drain t) = ⟨(p.board.drain t).2,
      p.underway ++ (p.board.drain t).1.map (Errand.resolving (.error .connectionClosed))⟩ := rfl
  rw [hs]
  refine h.extend _ (h.sound.drain t) rfl rfl ?_ (fun _ _ hf => .inl hf) ?_
  · intro m hm e
    obtain ⟨q, -, rfl⟩ := List.mem_map.mp hm
    exact carried?_resolving _ q e
  · intro e x hp
    rw [holder?_drain]
    split
    · rename_i he
      refine .inr ⟨.error .connectionClosed, List.mem_map.mpr ⟨.entry e, ?_, rfl⟩⟩
      exact (mem_drain_iff (h.sound.orderly t)).mpr ⟨x.requestId, he ▸ hp⟩
    · exact .inl hp

private theorem Inv.defer {p : Race} (h : p.Inv) (now : Nat) {id : Ident} (wait : Span) (t : TableId)
    (hid : ∀ x ∈ p.board.entries, x.requestId ≠ id) : (p.step (.defer now id wait t)).Inv := by
  by_cases ht : t < p.board.tables.length
  · have hs : p.step (.defer now id wait t) =
        ⟨(p.board.defer now id wait t).2, p.underway ++ [.enrol p.board.entries.length]⟩ := if_pos ht
    rw [hs]
    -- the new command is on the wheel, and the operation that enters it into its table is under way
    refine ⟨h.sound.defer ht hid, ?_, ?_, ?_⟩
    · intro e x hx ha
      rw [wheel_defer, Wheel.find?_insert h.sound.tidy]
      rcases getElem?_defer hx with hx | ⟨rfl, rfl⟩
      · rw [if_neg fun hd => hid x (List.mem_of_getElem? hx) hd.2]
        exact (h.awaitsDeadline e x hx ha).imp_right (List.mem_append_left _)
      · exact .inl (if_pos ⟨rfl, rfl⟩)
    · intro e x hx ha
      rcases getElem?_defer hx with hx | ⟨rfl, rfl⟩
      · rcases h.awaitsAnswer e x hx ha with hp | hm | ⟨outcome, hm⟩
        · exact .inl hp
        · exact .inr (.inl (List.mem_append_left _ hm))
        · exact .inr (.inr ⟨outcome, List.mem_append_left _ hm⟩)
      · exact .inr (.inl (List.mem_append_right _ List.mem_cons_self))
    · intro e
      have hc : claims ⟨(p.board.defer now id wait t).2, p.underway ++ [.enrol p.board.entries.length]⟩ e =
          p.claims e := by
        simp [claims, Errand.carried?, submissions, Switchboard.defer]
      rw [hc, h.once e]
      cases hx : (p.board.defer now id wait t).2.entries[e]? with
      | none => rw [getElem?_eq_none_of_defer hx]
      | some x =>
        rcases getElem?_defer hx with hx | ⟨rfl, rfl⟩
        · rw [hx]
        · simp
  · have hs : p.step (.defer now id wait t) = p := if_neg ht
    rwa [hs]

private theorem Inv.advance {p : Race} (h : p.Inv) (n : Nat) : (p.step (.advance n)).Inv := by
  cases ha : p.underway[n]? with
  | none => simpa [Race.step, ha] using h
  | some a =>
    have hs : p.step (.advance n) = ⟨(a.step p.board).2, p.underway.eraseIdx n ++ (a.step p.board).1.toList⟩ := by
      simp [Race.step, ha]
    obtain ⟨hn, rfl⟩ := List.getElem?_eq_some_iff.mp ha
    rw [hs]
    -- one step is about the first operation, so the one that advances is brought to the front
    exact (h.perm (List.getElem_cons_eraseIdx_perm hn).symm).errandStep.perm List.perm_append_comm

/-- Every event keeps the books of the race, if a deferred command has an identifier of its own. -/
theorem Inv.step {p : Race} (h : p.Inv) {event : Event}
    (hid : ∀ id, event.requestId? = some id → ∀ x ∈ p.board.entries, x.requestId ≠ id) : (p.step event).Inv := by
  cases event with
  | openTable => exact h.openTable
  | defer now id wait t => exact h.defer now wait t (hid id rfl)
  | receive t reply => exact h.receive t reply
  | popDue second => exact h.popDue second
  | drain t => exact h.drain t
  | advance n => exact h.advance n

private theorem requestIds_errandStep (b : Switchboard) (a : Errand) : (a.step b).2.requestIds = b.requestIds := by
  cases a with
  | enrol e =>
    cases hx : b.entries[e]? with
    | none => simp [Errand.step, hx]
    | some x =>
      have : (b.register x.table x.requestId (.entry e)).2.requestIds = b.requestIds := by simp [requestIds]
      simp only [Errand.step, hx]
      split <;> rename_i hr <;> rw [hr] at this <;> exact this
  | wake w o => rfl
  | task t =>
    cases t with
    | complete e o =>
      have := requestIds_takeCallback b e
      simp only [Errand.step, Task.step]
      split <;> rename_i hr <;> rw [hr] at this <;> exact this
    | unpark e o => simp [Errand.step, Task.step, requestIds]
    | expire e =>
      have := requestIds_takeCallback b e
      simp only [Errand.step, Task.step]
      split <;> rename_i hr <;> rw [hr] at this <;> exact this
    | withdraw e o => simp [Errand.step, Task.step, requestIds]
    | submit e o => rfl

private theorem requestIds_step (p : Race) (event : Event) :
    (p.step event).board.requestIds.Sublist (p.board.requestIds ++ event.requestId?.toList) := by
  cases event with
  | defer now id wait t =>
    by_cases ht : t < p.board.tables.length
    · have hs : (p.step (.defer now id wait t)).board = (p.board.defer now id wait t).2 :=
        congrArg Race.board (if_pos ht)
      rw [hs]
      simp [requestIds, Event.requestId?]
    · have hs : p.step (.defer now id wait t) = p := if_neg ht
      rw [hs]
      exact List.sublist_append_left _ _
  | advance n =>
    cases ha : p.underway[n]? with
    | none => simp [Race.step, ha]
    | some a => simp [Race.step, ha, requestIds_errandStep, Event.requestId?]
  | openTable => exact List.sublist_append_left _ _
  | receive t reply => exact List.sublist_append_left _ _
  | popDue second => exact List.sublist_append_left _ _
  | drain t => exact List.sublist_append_left _ _

/-- The invariant holds at every moment of a race whose commands have pairwise distinct identifiers. -/
theorem Inv.run {p : Race} (h : p.Inv) {events : List Event}
    (hd : (p.board.requestIds ++ events.filterMap (·.requestId?)).Nodup) : (p.run events).Inv := by
  induction events generalizing p with
  | nil => exact h
  | cons event events ih =>
    have hf : (event :: events).filterMap (·.requestId?) =
        event.requestId?.toList ++ events.filterMap (·.requestId?) := by
      cases hi : event.requestId? <;> simp [hi]
    rw [hf, ← List.append_assoc] at hd
    rw [run_cons]
    -- an identifier only ever moves over from the events to come to those seen
    refine ih (h.step ?_) (hd.sublist ((requestIds_step p event).append_right _))
    intro id hid x hx he
    have hn := (List.nodup_append.mp (List.nodup_append.mp hd).1).2.2
    exact hn x.requestId (List.mem_map_of_mem hx) id (by simp [hid]) he

end Race

end LockService
