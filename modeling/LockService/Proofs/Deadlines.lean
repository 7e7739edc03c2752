import LockService.Proofs.Teardown
import LockService.Proofs.Timeouts

/-!
# Callbacks time out when their wait is over

The wait of a callback request is what the request asks of the server and the grace of the configuration. The wheel
counts whole seconds, so the moment at which the request is parked is rounded down and its wait is rounded up.
`Exchange.callbacks_time_out_when_due` says that the callback nevertheless never hears of a timeout before its wait is
over, that the wheel can fail it less than two seconds later, and what else the wheel does and leaves alone when it
fails what is due.

The wheel finds a command by its deadline and identifier. When a request is sent twice within a second, one of its
commands can lose its place to the other one and be stuck (`Exchange.refused_twin_leaves_command_stuck`).
-/

namespace LockService

namespace Client

open Switchboard

private theorem calm_enter (c : Client) (now i : Nat) (s : SessionId) (session : Session) (request : Request)
    (manner : Manner) : c.board.Calm (c.enter now i s session request manner).2.board := by
  cases manner with
  | awaited =>
    have h := calm_await c.board session.table request.requestId (c.bound request)
    simp only [enter, sendOn]
    rcases hp : c.board.await session.table request.requestId (c.bound request) with ⟨_ | a, b⟩
    all_goals
      rw [hp] at h
      exact h
  | callback =>
    have h := calm_deferRegistered c.board now request.requestId (c.bound request) session.table
    simp only [enter, postOn]
    rcases hp : c.board.deferRegistered now request.requestId (c.bound request) session.table with ⟨e, _ | _, b⟩
    all_goals
      rw [hp] at h
      exact h

private theorem calm_receive (c : Client) (i : Nat) (bytes : List UInt8) : c.board.Calm (c.receive i bytes).board := by
  rcases receive_cases c i bytes with h | ⟨k, s, session, frames, unread, -, -, -, h⟩
  · rw [h]
    exact .refl _
  · rw [h]
    exact calm_receiveFrames frames session.table c.board

private theorem calm_failWrite (c : Client) (i : Nat) (s : SessionId) (n : Nat) (reason : String) :
    c.board.Calm (c.failWrite i s n reason).board := by
  rcases failWrite_cases c i s n reason with h | ⟨session, request, -, h⟩
  · rw [h]
    exact .refl _
  · have htake : c.board.Calm (c.board.take session.table request.requestId).2 := calm_setTable _ _ _
    have ho : ∀ wait, (.error (.write reason) : Outcome Reply) ≠ .error (.timeout wait) := by simp
    rw [h]
    rcases hp : c.board.take session.table request.requestId with ⟨_ | p, b⟩
    all_goals rw [hp] at htake
    · exact htake
    · exact htake.trans (calm_resolve b ho p)

end Client

namespace Exchange

open Switchboard

variable {x x' : Exchange} {n : Nat} {r : Sent} {e : EntryId}

/-! ### Events -/

/-- Whatever connections and their supervisors do, no callback runs on a timeout. -/
private theorem calm_play {event : Interplay.Event} {p : Interplay} (hp : x.play.step event = some p) :
    x.board.Calm p.client.board := by
  have ho : ∀ wait, (.error .connectionClosed : Outcome Reply) ≠ .error (.timeout wait) := by simp
  rcases Interplay.step_cases hp with ⟨n, i, s, rest, -, -, hc⟩ | ⟨-, hb | hb⟩
  · rw [hc]
    rcases Client.drain_cases x.play.client i s with ⟨h, -⟩ | ⟨session, -, h⟩
    · rw [h]
      exact .refl _
    · rw [h]
      exact calm_drainWith x.board session.table ho
  · rw [hb]
    exact .refl _
  · rw [hb]
    exact calm_newTable _

/-- Only when the wheel fails what is due do callbacks run on timeouts. -/
theorem calm_step (x : Exchange) (event : Event) (hne : ∀ second, event ≠ .expireDue second) :
    x.board.Calm (x.step event).board := by
  cases event with
  | play event =>
    simp only [step]
    cases hp : x.play.step event with
    | none => exact .refl _
    | some p => exact calm_play hp
  | send i request manner =>
    simp only [step, send]
    split <;> exact .refl _
  | enter n now =>
    simp only [step, enter]
    split
    · exact x.client.calm_enter ..
    · exact .refl _
  | receive i bytes => exact x.client.calm_receive i bytes
  | timeOut n =>
    simp only [step, timeOut]
    split
    · split
      · exact calm_timeOut _ _
      · exact .refl _
    · exact .refl _
  | expireDue second => exact absurd rfl (hne second)
  | write i s n => exact .refl _
  | failWrite i s n reason => exact x.client.calm_failWrite i s n reason

/-- Callbacks run on a timeout in one event only, the wheel's. -/
private theorem expireDue_or_calm (x : Exchange) (event : Event) :
    (∃ second, event = .expireDue second) ∨ x.board.Calm (x.step event).board := by
  by_cases hd : ∃ second, event = .expireDue second
  · exact .inl hd
  · exact .inr (x.calm_step event fun second he => hd ⟨second, he⟩)

private theorem punctual_step (h : x.board.Punctual) (event : Event) : (x.step event).board.Punctual := by
  rcases x.expireDue_or_calm event with ⟨second, rfl⟩ | hcalm
  · exact h.expireDue second
  · exact hcalm.punctual h

private theorem punctual_run (h : x.board.Punctual) (events : List Event) : (x.run events).board.Punctual := by
  induction events generalizing x with
  | nil => exact h
  | cons event events ih => exact ih (punctual_step h event)

private theorem kept_step (x : Exchange) (event : Event) (e : EntryId) (entry : Entry)
    (he : x.board.entries[e]? = some entry) :
    ∃ entry', (x.step event).board.entries[e]? = some entry' ∧ entry'.disarmed = entry.disarmed := by
  rcases x.expireDue_or_calm event with ⟨second, rfl⟩ | hcalm
  · exact (lasts_expireDue x.board second).kept e entry he
  · exact hcalm.kept e entry he

/-- A request that was entered stays as it is. -/
private theorem sent_step (hr : x.sent[n]? = some r) (hu : r.progress.isUnderway = false) (event : Event) :
    (x.step event).sent[n]? = some r := by
  have hl := (List.getElem?_eq_some_iff.mp hr).1
  cases event with
  | send i request manner =>
    simp only [step, send]
    split <;> exact (List.getElem?_append_left hl).trans hr
  | enter m now =>
    simp only [step, enter]
    split
    · rename_i r' s session hunderway
      have hne : m ≠ n := by
        rintro rfl
        obtain ⟨hr', -, -, hu'⟩ := underway?_eq_some hunderway
        cases hr.symm.trans hr'
        rw [hu] at hu'
        cases hu'
      exact (List.getElem?_set_ne hne).trans hr
    · exact hr
  | timeOut m =>
    simp only [step, timeOut]
    split
    · split <;> exact hr
    · exact hr
  | _ => exact hr

/-! ### A callback request -/

/-- A request has been posted as a command with a deadline and a wait. -/
structure Posted (x : Exchange) (n : Nat) (e : EntryId) (deadline : Nat) (wait : Span) : Prop where
  sent : ∃ r, x.sent[n]? = some r ∧ r.progress = .posted e
  entry : ∃ entry, x.board.entries[e]? = some entry ∧ entry.deadline = deadline ∧ entry.wait = wait

/-- A command that was posted stays what it is, whatever happens. -/
private theorem Posted.step {deadline : Nat} {wait : Span} (h : x.Posted n e deadline wait) (event : Event) :
    (x.step event).Posted n e deadline wait := by
  obtain ⟨r, hr, hp⟩ := h.sent
  obtain ⟨entry, he, hd, hw⟩ := h.entry
  obtain ⟨entry', he', hsame⟩ := kept_step x event e entry he
  have hu : r.progress.isUnderway = false := by
    rw [hp]
    rfl
  exact ⟨⟨r, sent_step hr hu event, hp⟩, entry', he', (congrArg Entry.deadline hsame :).trans hd,
    (congrArg Entry.wait hsame :).trans hw⟩

private theorem Posted.run {deadline : Nat} {wait : Span} (h : x.Posted n e deadline wait) (events : List Event) :
    (x.run events).Posted n e deadline wait := by
  induction events generalizing x with
  | nil => exact h
  | cons event events ih => exact ih (h.step event)

private theorem Posted.outcomes {deadline : Nat} {wait : Span} (h : x.Posted n e deadline wait) :
    x.outcomes n = x.board.outcomes (.entry e) := by
  obtain ⟨r, hr, hp⟩ := h.sent
  rw [Exchange.outcomes, hr, Option.map_some, hp]
  rfl

/-- What a posted request hears of timeouts in an event. -/
private theorem Posted.hears {deadline : Nat} {wait : Span} (h : x.Posted n e deadline wait) (hb : x.board.Punctual)
    (event : Event) : ∃ new, (x.step event).outcomes n = x.outcomes n ++ new ∧
      ∀ wait', .error (.timeout wait') ∈ new →
        wait' = wait ∧ ∃ second, event = .expireDue second ∧ deadline ≤ second := by
  rw [h.outcomes, (h.step event).outcomes]
  rcases x.expireDue_or_calm event with ⟨second, rfl⟩ | hcalm
  · obtain ⟨entry, he, rfl, rfl⟩ := h.entry
    by_cases hdue : e ∈ x.board.wheel.due second
    · refine ⟨_, hb.outcomes_of_due hdue he, fun wait' hm => ?_⟩
      obtain ⟨entry', he', -, hle⟩ := hb.isArmed_of_mem_due hdue
      cases he.symm.trans he'
      cases List.mem_singleton.mp hm
      exact ⟨rfl, second, rfl, hle⟩
    · exact ⟨[], (hb.outcomes_of_not_due hdue).trans (List.append_nil _).symm, by simp⟩
  · obtain ⟨new, hnew, hnone⟩ := hcalm.runs
    refine ⟨(new.filter (·.1 = e)).map (·.2), ?_, fun wait' hm => ?_⟩
    · rw [outcomes_eq_runs, hnew, List.filter_append, List.map_append, outcomes_eq_runs]
    · refine absurd ?_ (hnone e wait')
      simpa using hm

/-- A posted request that has heard nothing fails with its deadline, unless it has a twin. -/
private theorem Posted.fails {deadline : Nat} {wait : Span} (h : x.Posted n e deadline wait) (hb : x.board.Punctual)
    (hquiet : x.outcomes n = []) {second : Nat} (hd : deadline ≤ second) :
    (x.step (.expireDue second)).outcomes n = [.error (.timeout wait)] ∨
      ∃ entry, x.board.entries[e]? = some entry ∧ x.board.HasTwin e entry := by
  obtain ⟨entry, he, rfl, rfl⟩ := h.entry
  rw [h.outcomes] at hquiet
  rcases (hb.failsDue second).exhaustive e entry he hquiet hd with hdue | htwin
  · have hone := hb.outcomes_of_due hdue he
    rw [hquiet] at hone
    exact .inl ((h.step (.expireDue second)).outcomes.trans hone)
  · exact .inr ⟨entry, he, htwin⟩

private theorem enter_callback {s : SessionId} {session : Session} (hu : x.underway? n = some (r, s, session))
    (hm : r.manner = .callback) (now : Nat) :
    (x.step (.enter n now)).sent = x.sent.set n { r with progress := .posted x.board.entries.length } ∧
      (x.step (.enter n now)).board =
        (x.board.deferRegistered now r.request.requestId (x.client.bound r.request) session.table).2.2 := by
  have he := (entry_deferRegistered x.board now r.request.requestId (x.client.bound r.request) session.table).1
  simp only [step, enter, hu, hm, Client.enter, Client.postOn]
  rcases hd : x.client.board.deferRegistered now r.request.requestId (x.client.bound r.request) session.table with
    ⟨e, _ | _, b⟩
  all_goals
    rw [show x.board = x.client.board from rfl, hd] at he
    rw [show x.board = x.client.board from rfl, hd, ← he]
    exact ⟨rfl, rfl⟩

/-- Entering a callback request posts it, and nothing is heard of a timeout yet. -/
private theorem posted_enter (hb : x.board.Punctual) {s : SessionId} {session : Session}
    (hu : x.underway? n = some (r, s, session)) (hm : r.manner = .callback) (now : Nat) :
    (x.step (.enter n now)).Posted n x.board.entries.length (Wheel.deadline now (x.client.bound r.request))
        (x.client.bound r.request) ∧
      ∀ wait, .error (.timeout wait) ∉ (x.step (.enter n now)).outcomes n := by
  obtain ⟨hn, -, -, -⟩ := underway?_eq_some hu
  obtain ⟨hsent, hboard⟩ := enter_callback hu hm now
  obtain ⟨-, entry, he, hsame⟩ :=
    entry_deferRegistered x.board now r.request.requestId (x.client.bound r.request) session.table
  have hposted : (x.step (.enter n now)).Posted n x.board.entries.length
      (Wheel.deadline now (x.client.bound r.request)) (x.client.bound r.request) := by
    refine ⟨⟨{ r with progress := .posted x.board.entries.length }, ?_, rfl⟩, entry, ?_,
      (congrArg Entry.deadline hsame :), (congrArg Entry.wait hsame :)⟩
    · rw [hsent]
      exact List.getElem?_set_self (List.getElem?_eq_some_iff.mp hn).1
    · rw [hboard]
      exact he
  refine ⟨hposted, fun wait hw => ?_⟩
  obtain ⟨new, hnew, hcalm⟩ := (x.calm_step (.enter n now) (by simp)).runs
  rw [hposted.outcomes, mem_outcomes_iff, hnew] at hw
  rcases List.mem_append.mp hw with hw | hw
  · -- a command that is not there yet has run nothing
    obtain ⟨entry, he, -⟩ := (hb.ran _).mp ⟨_, hw⟩
    exact Nat.lt_irrefl _ (List.getElem?_eq_some_iff.mp he).1
  · exact hcalm _ wait hw

/-- The command of a request has the same deadline and identifier as another one. -/
def HasTwin (x : Exchange) (n : Nat) : Prop :=
  ∃ e entry, x.sent[n]?.map (·.progress) = some (.posted e) ∧ x.board.entries[e]? = some entry ∧
    x.board.HasTwin e entry

/-- What becomes of a callback request that has been entered at the time `start`. -/
structure TimesOut (x : Exchange) (n : Nat) (start wait : Span) : Prop where
  unheard : ∀ wait', .error (.timeout wait') ∉ x.outcomes n
  /-- Only the wheel lets it time out, with its own wait, at a second when that wait is over. -/
  notEarly : ∀ events event, ∃ new, (x.run (events ++ [event])).outcomes n = (x.run events).outcomes n ++ new ∧
    ∀ wait', .error (.timeout wait') ∈ new → wait' = wait ∧ ∃ second, event = .expireDue second ∧
      start.floorSeconds + wait.ceilSeconds + 1 ≤ second ∧
      ∀ stop : Span, second ≤ stop.floorSeconds → start.nanos + wait.nanos < stop.nanos
  /-- The wheel lets it time out as soon as it fails what is due by its deadline. -/
  notStuck : ∀ events second, (x.run events).outcomes n = [] → start.floorSeconds + wait.ceilSeconds + 1 ≤ second →
    (x.run (events ++ [.expireDue second])).outcomes n = [.error (.timeout wait)] ∨ (x.run events).HasTwin n
  soon : (start.floorSeconds + wait.ceilSeconds + 1) * 1000000000 < start.nanos + wait.nanos + 2 * 1000000000

/-- A posted command times out when its deadline is due and not before, unless it has a twin. -/
private theorem Posted.timesOut {start wait : Span} (h : x.Posted n e (Wheel.deadline start.floorSeconds wait) wait)
    (hb : x.board.Punctual) (hquiet : ∀ wait', .error (.timeout wait') ∉ x.outcomes n) : x.TimesOut n start wait where
  unheard := hquiet
  notEarly events event := by
    obtain ⟨new, hnew, hheard⟩ := (h.run events).hears (punctual_run hb events) event
    refine ⟨new, by rw [run_append]; exact hnew, fun wait' hm => ?_⟩
    obtain ⟨rfl, second, rfl, hd⟩ := hheard wait' hm
    exact ⟨rfl, second, rfl, hd, fun stop => Wheel.lt_of_deadline_le hd⟩
  notStuck events second hnone hd := by
    rw [run_append]
    refine ((h.run events).fails (punctual_run hb events) hnone hd).imp_right ?_
    rintro ⟨entry, he, htwin⟩
    obtain ⟨r, hr, hp⟩ := (h.run events).sent
    exact ⟨e, entry, by rw [hr, Option.map_some, hp], he, htwin⟩
  soon := Wheel.deadline_lt start wait

end Exchange

/-- A caller that awaits a request is told of the request's wait and the grace when they are over. -/
private theorem Client.timeOut_sendOn {c c' : Client} {i : Nat} {s : SessionId} {session : Session} {request : Request}
    {a : Awaited} (h : c.sendOn i s session request = (.ok a, c')) (b : Switchboard) :
    (b.timeOut a).delivered.getLast? = some (.waiter a.waiter (.error (.timeout (c.bound request)))) := by
  have hbound : a.bound = c.bound request := by
    simp only [sendOn, Switchboard.await] at h
    split at h
    · rename_i ha
      split at ha
      · cases ha
        cases h
        rfl
      · cases ha
    · cases h
  rw [← hbound]
  exact List.getLast?_concat

/-- No request lets the service hold it back for longer than 65535 minutes. -/
private theorem Request.nanos_waitSpan_le (request : Request) : request.waitSpan.nanos ≤ 3932100000000000 := by
  cases request with
  | lock request =>
    have hvalue := request.timeout.value.toNat_lt
    show request.timeout.waitSpan.nanos ≤ _
    rw [TimeWord.waitSpan]
    split
    · simp only [Span.ofMillis]
      omega
    · split <;> simp only [Span.ofSeconds, Span.ofParts] <;> omega
  | _ => exact Nat.zero_le _

/-- Words of 64 bits hold the deadlines of all requests, and the seconds after them. -/
private theorem Client.deadline_bound_lt (c : Client) (request : Request) {now : Nat}
    (hnow : now < 9223372036854775808) : Wheel.deadline now (c.bound request) + 1 < 18446744073709551616 := by
  have hwait := request.nanos_waitSpan_le
  have hgrace := c.config.graceMillis.toNat_lt
  have hbound : (c.bound request).nanos = request.waitSpan.nanos + c.config.graceMillis.toNat * 1000000 := rfl
  rw [Wheel.deadline, Span.ceilSeconds, hbound]
  omega

namespace Exchange

/-- Whatever has happened to a client since its start, a callback request times out when its wait and the grace are
over, and with the same wait as one that is awaited. Its deadline fits a word of 64 bits if it was parked in the first
2⁶³ seconds. Whenever the wheel fails what is due, it fails all of that and nothing else, apart from commands that have
a twin. No command has one when the requests have identifiers of their own. -/
theorem callbacks_time_out_when_due {config : Config} {replicated : Bool} {ids : IdSource} {c : Client}
    (hc : Client.start config replicated ids = .ok c) (events : List Event) :
    (∀ n r s session (start : Span), ((fresh c).run events).underway? n = some (r, s, session) →
      let x := (fresh c).run events
      let wait := r.request.waitSpan + x.client.config.responseGrace
      (r.manner = .callback → (x.step (.enter n start.floorSeconds)).TimesOut n start wait) ∧
        (start.floorSeconds < 9223372036854775808 →
          Wheel.deadline start.floorSeconds wait + 1 < 18446744073709551616) ∧
        ∀ a c', x.client.sendOn r.connection s session r.request = (.ok a, c') → ∀ b : Switchboard,
          (b.timeOut a).delivered.getLast? = some (.waiter a.waiter (.error (.timeout wait)))) ∧
    (∀ second, ((fresh c).run events).board.FailsDue second) ∧
    ((events.filterMap (·.requestId?)).Nodup → ∀ (e : EntryId) (entry : Entry),
      ((fresh c).run events).board.entries[e]? = some entry → ¬ ((fresh c).run events).board.HasTwin e entry) := by
  have hstart : (fresh c).board.Punctual := by
    rw [show (fresh c).board = {} from Client.board_start hc]
    exact Switchboard.punctual_empty
  have hb := punctual_run hstart events
  refine ⟨fun n r s session start hu => ⟨fun hm => ?_, Client.deadline_bound_lt _ r.request,
    fun a c' ha b => Client.timeOut_sendOn ha b⟩, hb.failsDue, fun hd e entry he htwin => ?_⟩
  · obtain ⟨hposted, hquiet⟩ := posted_enter hb hu hm start.floorSeconds
    exact hposted.timesOut (punctual_step hb _) hquiet
  · obtain ⟨e', entry', hne, he', -, hid⟩ := htwin
    have hids : ((fresh c).requestIds ++ events.filterMap (·.requestId?)).Nodup := hd
    have hinv := ((inv_start hc).run events hids).1
    exact hne (hinv.clear.coherent.sound.distinct e' e entry' entry he' he hid)

/-- A lock request that the server may hold back for one second and a half. -/
def briefLock : Request := .lock {
  kind := .lock
  requestId := .ofHalves 1 0
  flag := 0
  dbId := 0
  lockId := .ofHalves 2 0
  lockKey := .ofBytes [3]
  timeout := .pack 1500 TimeoutFlag.millis
  expire := .seconds 5
  count := 0
  reentry := 0 }

/-- It is sent on the only connection. -/
def briefWait : List Event := opening 0 soloIds.advance.upcoming ++ [.send 0 briefLock .callback]

/-- With a grace of five seconds its wait ends at 107.2 s when it is entered at 100.7 s, and it times out at 108 s. -/
theorem brief_wait_times_out_at_108 :
    (((fresh soloClient).run briefWait).step (.enter 0 100)).TimesOut 0 ⟨100700000000⟩ ⟨6500000000⟩ ∧
      ((fresh soloClient).run (briefWait ++ [.enter 0 100, .expireDue 107])).outcomes 0 = [] ∧
      ((fresh soloClient).run (briefWait ++ [.enter 0 100, .expireDue 107, .expireDue 108])).outcomes 0 =
        [.error (.timeout ⟨6500000000⟩)] := by
  have hu : (((fresh soloClient).run briefWait).underway? 0).map (fun (r, _) => (r.request, r.manner)) =
      some (briefLock, .callback) := by decide +kernel
  obtain ⟨⟨r, s, session⟩, hu, he⟩ := Option.map_eq_some_iff.mp hu
  obtain ⟨hrequest, hmanner⟩ := Prod.mk.inj he
  have htimes := ((callbacks_time_out_when_due start_solo briefWait).1 0 r s session ⟨100700000000⟩ hu).1 hmanner
  have hwait : r.request.waitSpan + ((fresh soloClient).run briefWait).client.config.responseGrace = ⟨6500000000⟩ := by
    rw [show r.request = briefLock from hrequest]
    decide +kernel
  have hfloor : Span.floorSeconds ⟨100700000000⟩ = 100 := by decide
  rw [hwait, hfloor] at htimes
  have hquiet : ((fresh soloClient).run (briefWait ++ [.enter 0 100, .expireDue 107])).outcomes 0 = [] :=
    List.isEmpty_iff.mp (by decide +kernel)
  refine ⟨htimes, hquiet, ?_⟩
  have hevents : (fresh soloClient).run (briefWait ++ [.enter 0 100, .expireDue 107]) =
      (((fresh soloClient).run briefWait).step (.enter 0 100)).run [.expireDue 107] := by
    rw [run_append, run_cons]
  rw [hevents] at hquiet
  rw [run_append, run_cons]
  refine ((htimes.notStuck [.expireDue 107] 108 hquiet (by decide)).resolve_right ?_)
  rintro ⟨e, entry, -, hentry, htwin⟩
  rw [← hevents] at hentry htwin
  exact (callbacks_time_out_when_due start_solo _).2.2 (by decide) e entry hentry htwin

/-- A lock request finds the first session, which is torn down before the request is entered. The same request is sent
once more and entered on the second session in the same second, and then the first one is refused. -/
def refusedTwin : List Event :=
  opening 0 soloIds.advance.upcoming ++
  [.send 0 briefLock .callback, .play (.turn 0 .stopReading), .play (.turn 0 .teardown)] ++
  List.replicate 7 (.play (.move 1)) ++ opening 2 soloIds.advance.advance.upcoming ++
  [.send 0 briefLock .callback, .enter 1 100, .enter 0 100]

/-- The refused command has taken the other one off the wheel, which never fails it and still finds it in its table. -/
theorem refused_twin_leaves_command_stuck :
    ((fresh soloClient).run refusedTwin).board.entries[0]?.map (fun entry => (entry.deadline, entry.armed)) =
      some (108, true) ∧
    (((fresh soloClient).run refusedTwin).board.expireDue 1000).1 = 0 ∧
    ((fresh soloClient).run (refusedTwin ++ [.expireDue 1000])).outcomes 1 = [] ∧
    ((fresh soloClient).run (refusedTwin ++ [.expireDue 1000])).board.holder? 1 briefLock.requestId =
      some (.entry 0) := by
  refine ⟨by decide +kernel, by decide +kernel, List.isEmpty_iff.mp (by decide +kernel), by decide +kernel⟩

end Exchange

end LockService
