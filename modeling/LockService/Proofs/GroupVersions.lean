import LockService.Primitive.GroupUse
import LockService.Proofs.Chronicles
import Mathlib.Data.List.Forall2

/-!
# The version of a group event

The version of a handle only grows, and it grows only when a wait or a wakeup succeeds: to the version that the wait has
observed, or to the last one that the wakeup has sent. That is above the version that the wakeup found and above that of
the holder that it was told of, so that no wakeup is lost on a waiter at an older version (`versions_only_grow`).
-/

namespace LockService.GroupEvent

variable {e : GroupEvent}

/-! ### Versions -/

private theorem toNat_max (a b : UInt64) : (max a b).toNat = max a.toNat b.toNat := by
  show (if a ≤ b then b else a).toNat = _
  split
  · next h => exact (Nat.max_eq_right (UInt64.le_iff_toNat_le.mp h)).symm
  · next h =>
    rw [UInt64.le_iff_toNat_le] at h
    omega

private theorem le_max_left (a b : UInt64) : a ≤ max a b := by
  rw [UInt64.le_iff_toNat_le, toNat_max]
  exact Nat.le_max_left ..

private theorem le_max_right (a b : UInt64) : b ≤ max a b := by
  rw [UInt64.le_iff_toNat_le, toNat_max]
  exact Nat.le_max_right ..

private theorem max_eq_right {a b : UInt64} (h : a < b) : max a b = b := by
  refine UInt64.toNat.inj ?_
  rw [toNat_max]
  exact Nat.max_eq_right (Nat.le_of_lt (UInt64.lt_iff_toNat_lt.mp h))

/-- The versions of a handle and of the holders of its key stay below this one, so that counting on from them does not
come round. -/
def versionLimit : UInt64 := 0xfffffffffffffffe

private theorem toNat_add_one {a : UInt64} (ha : a ≤ versionLimit) : (a + 1).toNat = a.toNat + 1 := by
  have hle : a.toNat ≤ 18446744073709551614 := UInt64.le_iff_toNat_le.mp ha
  rw [UInt64.toNat_add]
  exact Nat.mod_eq_of_lt (Nat.lt_succ_of_le (Nat.succ_le_succ hle))

private theorem lt_add_one {a : UInt64} (ha : a ≤ versionLimit) : a < a + 1 := by
  rw [UInt64.lt_iff_toNat_lt, toNat_add_one ha]
  exact Nat.lt_succ_self _

private theorem add_one_le {a : UInt64} (ha : a < versionLimit) : a + 1 ≤ versionLimit := by
  rw [UInt64.le_iff_toNat_le, toNat_add_one (UInt64.le_of_lt ha)]
  exact UInt64.lt_iff_toNat_lt.mp ha

private theorem max_le {a b c : UInt64} (ha : a ≤ c) (hb : b ≤ c) : max a b ≤ c := by
  rw [UInt64.le_iff_toNat_le, toNat_max]
  exact Nat.max_le.mpr ⟨UInt64.le_iff_toNat_le.mp ha, UInt64.le_iff_toNat_le.mp hb⟩

/-! ### One call -/

/-- A request of a wakeup for a version. -/
structure IsWakeup (e : GroupEvent) (version : UInt64) (r : LockRequest) : Prop where
  kind : r.kind = .lock
  flag : r.flag = LockFlag.update
  lockKey : r.lockKey = e.key
  lockId : r.lockId = Ident.ofHalves version e.clientId

/-- The requests are those of a wakeup that found a version and has heard these answers. -/
def AreWakeups (e : GroupEvent) (found : UInt64) (sent : List LockRequest) (heard : List (Outcome Reply)) : Prop :=
  List.Forall₂ (IsWakeup e) (wakeupVersions found heard) sent

/-- What a call that has found a version may do: if it is a wakeup, it sends what wakeups send, and it changes the
version only when it ends. -/
def terms (e : GroupEvent) (call : GroupCall) (found : UInt64) : Terms State Told where
  asks log request := call = .wakeup → AreWakeups e found (log.map (·.1) ++ [request]) (log.map (·.2))
  ends log told before now := (call = .wakeup → AreWakeups e found (log.map (·.1)) (log.map (·.2))) ∧
    now = (raisedBy call (log.map (·.1)) told).elim before (max before)

/-- The terms of a call that is not a wakeup and raises the version as `raise` says when it ends. -/
def raising {α : Type} (raise : α → Option UInt64) : Terms State α where
  asks _ _ := True
  ends _ value before now := now = (raise value).elim before (max before)

/-- The version that a wait raises the handle's to. -/
def observed? : Outcome LockReply → Option UInt64
  | .ok reply => some (versionOf reply.lockId)
  | .error _ => none

section Keeps

variable (log : Exchanges) (s : State)

private theorem keeps_isSet : e.isSet.outcome.Keeps (raising fun _ => none) log s s := by
  refine fun id => ⟨rfl, trivial, fun outcome s => ?_⟩
  show Call.Keeps _ (Call.bind (Call.done (outcome >>= lockOutcome)) _) _ s s
  cases outcome >>= lockOutcome <;> exact rfl

private theorem keeps_set : e.set.outcome.Keeps (raising fun _ => none) log s s := by
  refine fun id => ⟨rfl, trivial, fun outcome s => ?_⟩
  show Call.Keeps _ (Call.bind (Call.bind (Call.done (outcome >>= lockOutcome)) _) _) _ s s
  cases outcome >>= lockOutcome with
  | ok reply => exact rfl
  | error failure =>
    cases hf : failure.isUnlocked <;> (simp only [Call.bind, hf]; exact rfl)

private theorem keeps_clear : e.clear.outcome.Keeps (raising fun _ => none) log s s := by
  refine fun id => ⟨rfl, trivial, fun outcome s => ?_⟩
  show Call.Keeps _ (Call.bind (Call.bind (Call.done (outcome >>= lockOutcome)) _) _) _ s s
  cases outcome >>= lockOutcome with
  | ok reply => exact rfl
  | error failure => cases hf : failure.isLocked <;> (simp only [Call.bind, hf]; exact rfl)

/-- A wait raises the version to the one that it has observed, if it succeeds. -/
private theorem keeps_wait (timeout : TimeWord) : (e.wait timeout).outcome.Keeps (raising observed?) log s s := by
  refine fun id => ⟨rfl, trivial, fun outcome s => ?_⟩
  show Call.Keeps _ (Call.bind (Call.done (outcome >>= lockOutcome)) _) _ s s
  cases outcome >>= lockOutcome <;> exact rfl

/-- Whichever of its waits succeeds, that one raises the version, and it is the last thing done. -/
theorem keeps_waitRetryClear (timeout : TimeWord) :
    (e.waitRetryClear timeout).outcome.Keeps (raising observed?) log s s := by
  refine Call.Keeps.bind (keeps_wait log s timeout) (fun _ _ h => h) fun log outcome before now hends => ?_
  cases outcome with
  | ok reply => exact hends
  | error failure =>
    obtain rfl : now = before := hends
    dsimp only
    split
    · refine Call.Keeps.bind (keeps_clear log now) (fun _ _ h => h) fun log outcome before now hends => ?_
      obtain rfl : now = before := hends
      cases outcome with
      | error other => exact rfl
      | ok _ =>
        refine Call.Keeps.bind (keeps_wait log now _) (fun _ _ h => h) fun log outcome before now hends => ?_
        cases outcome <;> exact hends
    · exact rfl

/-! ### A wakeup -/

private theorem versionOf_ofHalves (version clientId : UInt64) :
    versionOf (Ident.ofHalves version clientId) = version :=
  Ident.firstHalf_ofHalves ..

private theorem isWakeup_raiseLock (version : UInt64) (id : Ident) : IsWakeup e version
    ((e.lockAt version e.clientId (newerSucceeds (TimeWord.pack 0 0)) e.expire).requestWith .lock LockFlag.update id) :=
  ⟨rfl, rfl, rfl, rfl⟩

/-- The first request of a wakeup is its only one if the answer does not say that the key is held. -/
private theorem areWakeups_of_not_held {first : LockRequest} (hfirst : IsWakeup e (s + 1) first)
    {outcome : Outcome Reply} (hheld : isHeld outcome = false) : AreWakeups e s [first] [outcome] := by
  rw [AreWakeups, wakeupVersions, if_neg (hheld ▸ Bool.false_ne_true)]
  exact .cons hfirst .nil

private theorem areWakeups_of_held {first second : LockRequest} (hfirst : IsWakeup e (s + 1) first)
    {outcome : Outcome Reply} (hheld : isHeld outcome = true)
    (hsecond : IsWakeup e (max ((holder? outcome).getD (s + 1)) (s + 1) + 1) second) (heard : List (Outcome Reply)) :
    AreWakeups e s [first, second] (outcome :: heard) := by
  rw [AreWakeups, wakeupVersions, if_pos hheld]
  exact .cons hfirst (.cons hsecond .nil)

private theorem isHeld_of_error {outcome : Outcome Reply} {failure : Failure}
    (ho : outcome >>= lockOutcome = .error failure) : isHeld outcome = failure.isLocked := by
  rw [isHeld, ho]

private theorem holder?_of_error {outcome : Outcome Reply} {failure : Failure}
    (ho : outcome >>= lockOutcome = .error failure)
    (hl : failure.isLocked = true) : holder? outcome = failure.reply?.map fun reply => versionOf reply.lockId := by
  rw [holder?, ho]
  exact if_pos hl

/-- A wakeup asks for the next version, and a second time for one above the holder's if it was refused. -/
private theorem keeps_wakeup : e.wakeup.outcome.Keeps
    ⟨fun log request => AreWakeups e s (log.map (·.1) ++ [request]) (log.map (·.2)),
      fun log outcome before now => AreWakeups e s (log.map (·.1)) (log.map (·.2)) ∧
        now = (raisedBy .wakeup (log.map (·.1)) (.reply outcome)).elim before (max before)⟩ [] s s := by
  intro id
  have hfirst := isWakeup_raiseLock (e := e) (s + 1) id
  refine ⟨rfl, .cons hfirst .nil, fun outcome now => ?_⟩
  show Call.Keeps _ (Call.bind (Call.done (outcome >>= lockOutcome)) _) _ now now
  cases ho : outcome >>= lockOutcome with
  | ok reply =>
    have hheld : isHeld outcome = false := by rw [isHeld, ho]
    exact ⟨areWakeups_of_not_held s hfirst hheld,
      congrArg (max now) (versionOf_ofHalves (s + 1) e.clientId).symm⟩
  | error failure =>
    have hheld := isHeld_of_error ho
    cases hl : failure.isLocked with
    | false =>
      simp only [Call.bind, hl]
      exact ⟨areWakeups_of_not_held s hfirst (hheld.trans hl), rfl⟩
    | true =>
      -- the second request counts on from the holder that the failure names
      simp only [Call.bind, hl]
      rw [← holder?_of_error ho hl]
      intro id'
      have hboth := areWakeups_of_held s hfirst (hheld.trans hl) (isWakeup_raiseLock _ id')
      refine ⟨rfl, hboth [], fun outcome' now' => ?_⟩
      show Call.Keeps _ (Call.bind (Call.done (outcome' >>= lockOutcome)) _) _ now' now'
      cases outcome' >>= lockOutcome with
      | ok reply => exact ⟨hboth [outcome'], congrArg (max now') (versionOf_ofHalves _ e.clientId).symm⟩
      | error again => exact ⟨hboth [outcome'], rfl⟩

end Keeps

/-! ### All calls -/

/-- A call other than a wakeup may do what its raising says. -/
private theorem keeps_of_raising {α : Type} {call : GroupCall} {run : Call State α} {tell : α → Told}
    {raise : α → Option UInt64} {s : State} (hcall : call ≠ .wakeup)
    (hraise : ∀ sent value, raisedBy call sent (tell value) = raise value) (h : run.Keeps (raising raise) [] s s) :
    (tell <$> run).Keeps (e.terms call s) [] s s :=
  Call.Keeps.map h (fun _ _ _ hc => absurd hc hcall) fun _ value _ _ hends =>
    ⟨fun hc => absurd hc hcall, (hraise _ value).symm ▸ hends⟩

private theorem raisedBy_reply {call : GroupCall} (hcall : call ≠ .wakeup) (sent : List LockRequest)
    (outcome : Outcome LockReply) : raisedBy call sent (.reply outcome) = observed? outcome := by
  cases outcome with
  | ok reply => exact if_neg hcall
  | error failure => rfl

/-- Every call may do what it does. -/
theorem keeps_perform (e : GroupEvent) (call : GroupCall) (s : State) :
    (e.perform call).Keeps (e.terms call s) [] s s := by
  cases call with
  | isSet => exact keeps_of_raising (by decide) (fun _ _ => rfl) (keeps_isSet [] s)
  | set => exact keeps_of_raising (by decide) (fun _ _ => rfl) (keeps_set [] s)
  | clear => exact keeps_of_raising (by decide) (fun _ _ => rfl) (keeps_clear [] s)
  | wakeup => exact Call.Keeps.map (keeps_wakeup s) (fun _ _ h _ => h) fun _ _ _ _ h => ⟨fun _ => h.1, h.2⟩
  | wait timeout => exact keeps_of_raising (by simp) (raisedBy_reply (by simp)) (keeps_wait [] s timeout)
  | waitRetryClear timeout =>
    exact keeps_of_raising (by simp) (raisedBy_reply (by simp)) (keeps_waitRetryClear [] s timeout)

section Chronicle

variable {p : Chronicle GroupCall State Told} {entry : Chronicle.Entry GroupCall State Told}

/-- The version changes only when a call that raises it ends. -/
theorem state_step (hp : p.Keeps e.terms) (event : Chronicle.Event GroupCall) :
    (p.step e.perform event).state = ((p.played? e.perform event).bind raised?).elim p.state (max p.state) := by
  cases he : p.played? e.perform event with
  | none => rw [Chronicle.step_of_played?_eq_none he, Option.bind_none, Option.elim_none]
  | some entry =>
    have hstage := hp.played e.keeps_perform he
    rw [Option.bind_some, raised?, Chronicle.Entry.sent]
    cases hs : entry.stage with
    | finished told =>
      rw [hs] at hstage
      rw [Stage.pending, List.append_nil]
      exact hstage.2
    | waiting request resume =>
      rw [hs] at hstage
      exact hstage.1

/-- No event takes the version back. -/
private theorem state_le_step (hp : p.Keeps e.terms) (event : Chronicle.Event GroupCall) :
    p.state ≤ (p.step e.perform event).state := by
  rw [state_step hp]
  cases (p.played? e.perform event).bind raised? with
  | none => exact UInt64.le_refl _
  | some version => exact le_max_left p.state version

private theorem keeps_shared (e : GroupEvent) (version : UInt64) (ids : IdSource)
    (events : List (Chronicle.Event GroupCall)) : ((shared version ids).run e.perform events).Keeps e.terms :=
  Chronicle.keeps_run (fun _ he => absurd he List.not_mem_nil) e.keeps_perform events

/-- The requests of a wakeup, answered or not. -/
private theorem areWakeups_entry (hp : p.Keeps e.terms) (he : entry ∈ p.entries) (hcall : entry.call = .wakeup) :
    AreWakeups e entry.found entry.sent entry.heard := by
  obtain ⟨before, after, hstage⟩ := hp entry he
  rw [Chronicle.Entry.sent]
  cases hs : entry.stage with
  | finished told =>
    rw [hs] at hstage
    rw [Stage.pending, List.append_nil]
    exact hstage.1 hcall
  | waiting request resume =>
    rw [hs] at hstage
    exact hstage.2.1 hcall

/-! ### What a wakeup raises the version to -/

private theorem map_version_of_forall₂ {versions : List UInt64} {sent : List LockRequest}
    (h : List.Forall₂ (IsWakeup e) versions sent) : sent.map (fun request => versionOf request.lockId) = versions := by
  induction h with
  | nil => rfl
  | cons hr _ ih => rw [List.map_cons, hr.lockId, versionOf_ofHalves, ih]

/-- A wakeup does not count on from a version to a lower one: the last version that it sends is above the one it found
and above that of the holder reported to it before. -/
private theorem lt_last {found : UInt64} {heard : List (Outcome Reply)} (hfound : found < versionLimit)
    (hheld : ∀ holder ∈ (heard.take ((wakeupVersions found heard).length - 1)).filterMap holder?,
      holder < versionLimit) {last : UInt64} (hl : (wakeupVersions found heard).getLast? = some last) :
    found < last ∧ ∀ holder ∈ (heard.take ((wakeupVersions found heard).length - 1)).filterMap holder?,
      holder < last := by
  have hnext := lt_add_one (UInt64.le_of_lt hfound)
  cases heard with
  | nil =>
    cases hl
    exact ⟨hnext, fun _ hm => absurd hm List.not_mem_nil⟩
  | cons outcome rest =>
    by_cases hh : isHeld outcome = true
    · have hversions : wakeupVersions found (outcome :: rest) =
        [found + 1, max ((holder? outcome).getD (found + 1)) (found + 1) + 1] := if_pos hh
      rw [hversions] at hheld hl ⊢
      cases hl
      have hbound : (holder? outcome).getD (found + 1) ≤ versionLimit := by
        cases hholder : holder? outcome with
        | none => exact add_one_le hfound
        | some holder =>
          exact UInt64.le_of_lt (hheld holder (List.mem_filterMap.mpr ⟨outcome, List.mem_cons_self, hholder⟩))
      have htop := lt_add_one (max_le hbound (add_one_le hfound))
      refine ⟨UInt64.lt_trans hnext (UInt64.lt_of_le_of_lt (le_max_right ..) htop), fun holder hm => ?_⟩
      obtain ⟨outcome', ho, hholder⟩ := List.mem_filterMap.mp hm
      cases List.mem_singleton.mp ho
      rw [hholder] at htop ⊢
      exact UInt64.lt_of_le_of_lt (le_max_left ..) htop
    · have hversions : wakeupVersions found (outcome :: rest) = [found + 1] := if_neg hh
      rw [hversions] at hl ⊢
      cases hl
      exact ⟨hnext, fun _ hm => absurd hm List.not_mem_nil⟩

/-- The versions that a wakeup counts on from stay below the limit. -/
structure StaysBelow (entry : Chronicle.Entry GroupCall State Told) : Prop where
  found : entry.found < versionLimit
  holders : ∀ holder ∈ reported entry, holder < versionLimit

private theorem StaysBelow.lt_last (hb : StaysBelow entry) (hw : AreWakeups e entry.found entry.sent entry.heard)
    {last : UInt64} (hl : lastVersion? entry.sent = some last) :
    entry.found < last ∧ ∀ holder ∈ reported entry, holder < last := by
  have hholders := hb.holders
  rw [lastVersion?, ← List.getLast?_map, map_version_of_forall₂ hw] at hl
  rw [reported, ← hw.length_eq] at hholders ⊢
  exact GroupEvent.lt_last hb.found hholders hl

/-- As long as a call is the only one that goes on, the version is as it was found, until the call ends and raises it. -/
private theorem exists_alone (hp : p.Keeps e.terms) (call : GroupCall) (answers : List (Outcome Reply)) :
    ∃ entry, (p.run e.perform (.start call :: answers.map (.answer p.entries.length))).entries[p.entries.length]? =
        some entry ∧ entry.call = call ∧ entry.found = p.state ∧
      (p.run e.perform (.start call :: answers.map (.answer p.entries.length))).state =
        (raised? entry).elim p.state (max p.state) := by
  induction answers using List.reverseRecOn with
  | nil =>
    obtain ⟨entry, he, hn, hcall, hfound⟩ := p.exists_started e.perform call
    refine ⟨entry, hn, hcall, hfound, ?_⟩
    rw [List.map_nil, Chronicle.run_cons, Chronicle.run_nil, state_step hp, he, Option.bind_some]
  | append_singleton answers outcome ih =>
    obtain ⟨entry, hn, hcall, hfound, hstate⟩ := ih
    rw [List.map_append, List.map_singleton, ← List.cons_append, Chronicle.run_concat]
    have hq : (p.run e.perform (.start call :: answers.map (.answer p.entries.length))).Keeps e.terms :=
      Chronicle.keeps_run hp e.keeps_perform _
    generalize p.run e.perform (.start call :: answers.map (.answer p.entries.length)) = q at *
    rcases Chronicle.exists_answered e.perform hn outcome with
      hnone | ⟨entry', request, resume, he, hn', hcall', hfound', hstage⟩
    · rw [Chronicle.step_of_played?_eq_none hnone]
      exact ⟨entry, hn, hcall, hfound, hstate⟩
    · have hwaiting : raised? entry = none := by rw [raised?, hstage]
      rw [hwaiting, Option.elim_none] at hstate
      refine ⟨entry', hn', hcall'.trans hcall, hfound'.trans hfound, ?_⟩
      rw [state_step hq, he, Option.bind_some, hstate]

/-- The version is never below one that a call has raised it to. -/
private theorem raised?_le_run (version : UInt64) (ids : IdSource) (events : List (Chronicle.Event GroupCall))
    (he : entry ∈ ((shared version ids).run e.perform events).entries) {raised : UInt64}
    (hr : raised? entry = some raised) : raised ≤ ((shared version ids).run e.perform events).state := by
  induction events using List.reverseRecOn with
  | nil => cases he
  | append_singleton events event ih =>
    have hq := keeps_shared e version ids events
    rw [Chronicle.run_concat] at he ⊢
    generalize (shared version ids).run e.perform events = q at *
    cases hplayed : q.played? e.perform event with
    | none =>
      rw [Chronicle.step_of_played?_eq_none hplayed] at he ⊢
      exact ih he
    | some entry' =>
      rcases Chronicle.mem_entries_step hplayed he with he | rfl
      · exact UInt64.le_trans (ih he) (state_le_step hq event)
      · rw [state_step hq, hplayed, Option.bind_some, hr]
        exact le_max_right ..

private theorem raised?_of_success {reply : LockReply} (hcall : entry.call = .wakeup)
    (hs : entry.stage = .finished (.reply (.ok reply))) : raised? entry = lastVersion? entry.sent := by
  rw [raised?, hs]
  exact if_pos hcall

private theorem raised?_of_not_success (hs : ∀ reply, entry.stage ≠ .finished (.reply (.ok reply))) :
    raised? entry = none := by
  unfold raised? raisedBy
  split
  · next told hstage =>
    split
    · exact absurd hstage (hs _)
    · rfl
  · rfl

/-- A wakeup that nothing comes in between of raises the version to the last that it sends. -/
private theorem state_alone (hp : p.Keeps e.terms) {answers : List (Outcome Reply)}
    (hn : (p.run e.perform (.start .wakeup :: answers.map (.answer p.entries.length))).entries[p.entries.length]? =
      some entry) (hb : StaysBelow entry) {reply : LockReply} (hs : entry.stage = .finished (.reply (.ok reply)))
    {last : UInt64} (hl : lastVersion? entry.sent = some last) :
    (p.run e.perform (.start .wakeup :: answers.map (.answer p.entries.length))).state = last := by
  obtain ⟨entry', hn', hcall, hfound, hstate⟩ := exists_alone hp .wakeup answers
  cases hn.symm.trans hn'
  have hq := Chronicle.keeps_run hp e.keeps_perform (.start .wakeup :: answers.map (.answer p.entries.length))
  have habove := hb.lt_last (areWakeups_entry hq (List.mem_of_getElem? hn) hcall) hl
  rw [hstate, raised?_of_success hcall hs, hl, ← hfound]
  exact max_eq_right habove.1

end Chronicle

/-! ### The law of versions -/

/-- What holds of a handle with the calls on it. -/
structure KeepsVersions (e : GroupEvent) (p : Chronicle GroupCall State Told) : Prop where
  /-- The version changes only when a wait or a wakeup succeeds, and then to the greater of its value and the version
  that the one has observed or the other has sent last. -/
  changes : ∀ event,
    (p.step e.perform event).state = ((p.played? e.perform event).bind raised?).elim p.state (max p.state)
  grows : ∀ event, p.state ≤ (p.step e.perform event).state
  /-- A section of a call that does not end it with success leaves the version alone. -/
  unchanged : ∀ event entry, p.played? e.perform event = some entry →
    (∀ reply, entry.stage ≠ .finished (.reply (.ok reply))) → (p.step e.perform event).state = p.state
  /-- A wakeup sends an update for the version after the one that it found, and one more only if that is held. -/
  wakeups : ∀ entry ∈ p.entries, entry.call = .wakeup → AreWakeups e entry.found entry.sent entry.heard
  /-- The last version that a wakeup sends is above the one that it found and above that of the holder reported. -/
  above : ∀ entry ∈ p.entries, entry.call = .wakeup → StaysBelow entry →
    ∀ last, lastVersion? entry.sent = some last → entry.found < last ∧ ∀ holder ∈ reported entry, holder < last
  /-- Once a wakeup has succeeded, the version is at least the last that it sent. -/
  reached : ∀ entry ∈ p.entries, entry.call = .wakeup → ∀ reply, entry.stage = .finished (.reply (.ok reply)) →
    ∀ last, lastVersion? entry.sent = some last → last ≤ p.state
  /-- If nothing came in between, it is exactly that. -/
  alone : ∀ (answers : List (Outcome Reply)) entry,
    (p.run e.perform (.start .wakeup :: answers.map (.answer p.entries.length))).entries[p.entries.length]? =
      some entry → StaysBelow entry → ∀ reply, entry.stage = .finished (.reply (.ok reply)) →
    ∀ last, lastVersion? entry.sent = some last →
    (p.run e.perform (.start .wakeup :: answers.map (.answer p.entries.length))).state = last

/-- On a handle with any version at first, whatever calls are made on it in whatever order their sections run, and
however their requests are answered, the version goes up only, and only by waits and wakeups. -/
theorem versions_only_grow (e : GroupEvent) (version : UInt64) (ids : IdSource)
    (events : List (Chronicle.Event GroupCall)) : KeepsVersions e ((shared version ids).run e.perform events) := by
  have hp := keeps_shared e version ids events
  constructor
  · exact state_step hp
  · exact state_le_step hp
  · intro event entry he hs
    rw [state_step hp, he, Option.bind_some, raised?_of_not_success hs, Option.elim_none]
  · exact fun entry => areWakeups_entry hp
  · exact fun entry he hcall hb last => hb.lt_last (areWakeups_entry hp he hcall)
  · intro entry he hcall reply hs last hl
    exact raised?_le_run version ids events he ((raised?_of_success hcall hs).trans hl)
  · exact fun answers entry hn hb reply hs last hl => state_alone hp hn hb hs hl

/-- An answer about a lock that has a version. -/
def answerAt (result : UInt8) (version : UInt64) : Outcome Reply :=
  .ok (.lock { (default : LockReply) with result, lockId := Ident.ofHalves version 7 })

/-- While a wakeup waits for its answer, a wait observes a version; the wakeup then hears of a newer holder. -/
def overtaking : List (Chronicle.Event GroupCall) :=
  [.start .wakeup, .start (.wait (TimeWord.pack 5 0)), .answer 1 (answerAt ResultCode.success 12),
    .answer 0 (answerAt ResultCode.locked 20), .answer 0 (answerAt ResultCode.success 21)]

/-- A handle of client 1. -/
def firstClient : GroupEvent := ⟨0, default, 1, default, default⟩

def afterOvertaking : Chronicle GroupCall State Told :=
  (shared 4 (.seeded 0 fun _ => default)).run firstClient.perform overtaking

/-- The wakeup found version 4 and was told of version 20, so it ends with version 21. -/
theorem overtaking_ends_above_holder : ∃ entry, afterOvertaking.entries[0]? = some entry ∧
    AreWakeups firstClient entry.found entry.sent entry.heard ∧ lastVersion? entry.sent = some 21 ∧
    reported entry = [20] ∧ StaysBelow entry ∧ entry.found < 21 ∧ (∀ holder ∈ reported entry, holder < 21) ∧
    21 ≤ afterOvertaking.state := by
  have hkept := versions_only_grow firstClient 4 (.seeded 0 fun _ => default) overtaking
  have hentry : ∃ entry, afterOvertaking.entries[0]? = some entry ∧ entry.call = .wakeup ∧
      lastVersion? entry.sent = some 21 ∧ reported entry = [20] ∧ entry.found = 4 ∧
      ∃ reply, entry.stage = .finished (.reply (.ok reply)) :=
    ⟨_, rfl, rfl, by decide +kernel, by decide +kernel, rfl, _, rfl⟩
  obtain ⟨entry, hn, hcall, hlast, hreported, hfound, reply, hs⟩ := hentry
  have hmem := List.mem_of_getElem? hn
  have hbelow : StaysBelow entry := by
    refine ⟨hfound ▸ by decide, fun holder hm => ?_⟩
    rw [hreported, List.mem_singleton] at hm
    rw [hm]
    decide
  obtain ⟨hlt, hholders⟩ := hkept.above entry hmem hcall hbelow 21 hlast
  exact ⟨entry, hn, hkept.wakeups entry hmem hcall, hlast, hreported, hbelow, hlt, hholders,
    hkept.reached entry hmem hcall reply hs 21 hlast⟩

end LockService.GroupEvent
