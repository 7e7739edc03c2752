import LockService.Proofs.ConnectionSteps

/-!
# Stages in the life of a connection

Between two events a connection is at one of four stages (`Connection.Stage`): its supervisor has no session, or one
that did not go live yet, or one that is in use, or one that the owner tore down by closing the connection. There is a
lemma for each event about the stage that it leads to; `Standing.passes` puts them together.
-/

namespace LockService

/-- The session that a supervisor is about, once it went live. -/
def Supervisor.liveSession? : Supervisor → Option SessionId
  | checking s | reading s | leaving s _ => some s
  | _ => none

/-- What the loss of a session consists of: it is drained, and its loss is reported. -/
def Move.lossOf (s : SessionId) : List Move := [drain s, leaveLive]

namespace Connection

/-- On a connection that was closed in the meantime, the supervisor is about to tear a session down and to end. -/
def OwesTeardown (k : Connection) (s : SessionId) : Prop :=
  k.shutdown = true ∧ (k.supervisor = .checking s ∨ k.supervisor = .leaving s true)

/-- How far the life of a connection has come, with the number of sessions that went live and of those that were
lost. -/
inductive Stage (k : Connection) : Nat → Nat → Prop where
  /-- The supervisor has no session. -/
  | atRest (hv : k.supervisor.isAtRest = true) (hs : k.stored = none) (ht : ∀ s, k.isTornDown s = true)
    (hp : k.phase ≠ .live) : k.Stage k.sessions.length k.sessions.length
  | engaged {s : SessionId} (hv : k.supervisor = .engaged s) (hn : s + 1 = k.sessions.length) (hs : k.stored = none)
    (ht : ∀ s', k.isTornDown s' = decide (s' ≠ s)) (hp : k.phase ≠ .live) : k.Stage s s
  | inUse {s : SessionId} (hv : k.supervisor.liveSession? = some s) (hn : s + 1 = k.sessions.length)
    (hs : k.stored = some s) (ht : ∀ s', k.isTornDown s' = decide (s' ≠ s))
    (hp : k.phase = .live ∨ (k.phase = .closed ∧ k.OwesTeardown s)) : k.Stage (s + 1) s
  /-- The owner closed the connection and tore the session down. -/
  | closedDown {s : SessionId} (hv : k.supervisor.liveSession? = some s) (hn : s + 1 = k.sessions.length)
    (hs : k.stored = none) (ht : ∀ s', k.isTornDown s' = true) (hp : k.phase = .closed) : k.Stage (s + 1) (s + 1)

/-- How a connection stands between two events. -/
structure Standing (k : Connection) (live lost : Nat) : Prop where
  closed : k.phase = .closed ↔ k.shutdown = true
  last : ∀ s, k.supervisor = .leaving s true → k.shutdown = true
  stage : k.Stage live lost

variable {k k' : Connection} {live lost : Nat} {s : SessionId}

/-- The sessions lost are those that are torn down. -/
theorem Stage.lt_lost_iff (h : k.Stage live lost) (s : SessionId) :
    s < lost ↔ s < k.sessions.length ∧ k.isTornDown s = true := by
  have below : ∀ {a b n : Nat}, a + 1 = n → (b < a ↔ b < n ∧ b ≠ a) := by
    intro a b n hn
    omega
  cases h with
  | atRest hv hs ht hp => simp [ht]
  | engaged hv hn hs ht hp => rw [ht, decide_eq_true_eq, below hn]
  | inUse hv hn hs ht hp => rw [ht, decide_eq_true_eq, below hn]
  | closedDown hv hn hs ht hp => simp [ht, hn]

/-- While the supervisor is at rest there is no session: none is stored, all are torn down, and the phase is not live.
-/
theorem Stage.of_isAtRest (h : k.Stage live lost) (hv : k.supervisor.isAtRest = true) : k.stored = none ∧
    (∀ s, k.isTornDown s = true) ∧ k.phase ≠ .live ∧ live = k.sessions.length ∧ lost = k.sessions.length := by
  cases h with
  | atRest _ hs ht hp => exact ⟨hs, ht, hp, rfl, rfl⟩
  | engaged hv' =>
    rw [hv'] at hv
    cases hv
  | inUse hv' => cases h : k.supervisor <;> simp_all [Supervisor.isAtRest, Supervisor.liveSession?]
  | closedDown hv' => cases h : k.supervisor <;> simp_all [Supervisor.isAtRest, Supervisor.liveSession?]

private theorem Stage.of_engaged (h : k.Stage live lost) (hv : k.supervisor = .engaged s) : s + 1 = k.sessions.length ∧
    k.stored = none ∧ (∀ s', k.isTornDown s' = decide (s' ≠ s)) ∧ k.phase ≠ .live ∧ live = s ∧ lost = s := by
  cases h with
  | atRest hv' =>
    rw [hv] at hv'
    cases hv'
  | engaged hv' hn hs ht hp =>
    cases hv.symm.trans hv'
    exact ⟨hn, hs, ht, hp, rfl, rfl⟩
  | inUse hv' =>
    rw [hv] at hv'
    cases hv'
  | closedDown hv' =>
    rw [hv] at hv'
    cases hv'

/-- A session that went live is in use, or it was torn down by closing the connection. -/
theorem Stage.of_liveSession? (h : k.Stage live lost) (hv : k.supervisor.liveSession? = some s) :
    s + 1 = k.sessions.length ∧ live = s + 1 ∧
      ((k.stored = some s ∧ (∀ s', k.isTornDown s' = decide (s' ≠ s)) ∧
          (k.phase = .live ∨ (k.phase = .closed ∧ k.OwesTeardown s)) ∧ lost = s) ∨
        (k.stored = none ∧ (∀ s', k.isTornDown s' = true) ∧ k.phase = .closed ∧ lost = s + 1)) := by
  cases h with
  | atRest hv' => cases h : k.supervisor <;> simp_all [Supervisor.isAtRest, Supervisor.liveSession?]
  | engaged hv' =>
    rw [hv'] at hv
    cases hv
  | inUse hv' hn hs ht hp =>
    cases hv.symm.trans hv'
    exact ⟨hn, rfl, .inl ⟨hs, ht, hp, rfl⟩⟩
  | closedDown hv' hn hs ht hp =>
    cases hv.symm.trans hv'
    exact ⟨hn, rfl, .inr ⟨hs, ht, hp, rfl⟩⟩

/-- A stored session is the latest and the only one not torn down, and its connection is live, or closed and about to
tear it down. -/
theorem Stage.of_stored (h : k.Stage live lost) (hs : k.stored = some s) : k.supervisor.liveSession? = some s ∧
    s + 1 = k.sessions.length ∧ (∀ s', k.isTornDown s' = decide (s' ≠ s)) ∧
      (k.phase = .live ∨ (k.phase = .closed ∧ k.OwesTeardown s)) ∧ live = s + 1 ∧ lost = s := by
  cases h with
  | atRest _ hs' => cases hs.symm.trans hs'
  | engaged _ _ hs' => cases hs.symm.trans hs'
  | inUse hv hn hs' ht hp =>
    cases hs.symm.trans hs'
    exact ⟨hv, hn, ht, hp, rfl, rfl⟩
  | closedDown _ _ hs' => cases hs.symm.trans hs'

/-- A live connection has a stored session that is not torn down. -/
theorem Stage.stored_of_live (h : k.Stage live lost) (hlive : k.phase = .live) :
    ∃ s, k.stored = some s ∧ k.isTornDown s = false := by
  cases h with
  | atRest _ _ _ hp => exact absurd hlive hp
  | engaged _ _ _ _ hp => exact absurd hlive hp
  | inUse _ _ hs ht _ => exact ⟨_, hs, by simp [ht]⟩
  | closedDown _ _ _ _ hp => cases hlive.symm.trans hp

/-- At most one session is not torn down. -/
theorem Stage.eq_of_not_isTornDown {s' : SessionId} (h : k.Stage live lost) (ht : k.isTornDown s = false)
    (ht' : k.isTornDown s' = false) : s = s' := by
  have one : ∀ {s₀ : SessionId}, (∀ s, k.isTornDown s = decide (s ≠ s₀)) → s = s' := by
    intro s₀ hall
    rw [hall] at ht ht'
    exact (by simpa using ht : s = s₀).trans (by simpa using ht' : s' = s₀).symm
  cases h with
  | atRest _ _ hall _ => cases (hall s).symm.trans ht
  | engaged _ _ _ hall _ => exact one hall
  | inUse _ _ _ hall _ => exact one hall
  | closedDown _ _ _ hall _ => cases (hall s).symm.trans ht

/-- Of the sessions that went live, those that were lost are those torn down. -/
theorem Stage.filter_range (h : k.Stage live lost) :
    (List.range live).filter (fun s => k.isTornDown s) = List.range lost := by
  have every : ∀ {n : Nat}, (∀ s < n, k.isTornDown s = true) →
      (List.range n).filter (fun s => k.isTornDown s) = List.range n := by
    intro n ht
    exact List.filter_eq_self.mpr fun s hs => ht s (List.mem_range.mp hs)
  have below : ∀ {s₀ : SessionId}, (∀ s, k.isTornDown s = decide (s ≠ s₀)) → ∀ s < s₀, k.isTornDown s = true := by
    intro s₀ hall s hlt
    rw [hall, decide_eq_true (Nat.ne_of_lt hlt)]
  cases h with
  | atRest _ _ hall _ => exact every fun s _ => hall s
  | engaged _ _ _ hall _ => exact every (below hall)
  | inUse _ _ _ hall _ =>
    rw [List.range_succ, List.filter_append, every (below hall)]
    simp [hall]
  | closedDown _ _ _ hall _ => exact every fun s _ => hall s

/-! ### Each event -/

private theorem Standing.alike (h : k.Standing live lost) (ha : k.Alike k') : k'.Standing live lost := by
  have howes : ∀ s, k.OwesTeardown s → k'.OwesTeardown s := by
    intro s ho
    rwa [OwesTeardown, ha.shutdown, ha.supervisor]
  refine ⟨by rw [ha.phase, ha.shutdown, h.closed], by rw [ha.supervisor, ha.shutdown]; exact h.last, ?_⟩
  have htorn : ∀ {p : SessionId → Bool}, (∀ s, k.isTornDown s = p s) → ∀ s, k'.isTornDown s = p s :=
    fun ht s => (ha.tornDown s).trans (ht s)
  cases h.stage with
  | atRest hv hs ht hp =>
    rw [← ha.length]
    exact .atRest (ha.supervisor ▸ hv) (ha.stored.trans hs) (htorn ht) (ha.phase ▸ hp)
  | engaged hv hn hs ht hp =>
    exact .engaged (ha.supervisor.trans hv) (hn.trans ha.length.symm) (ha.stored.trans hs) (htorn ht) (ha.phase ▸ hp)
  | inUse hv hn hs ht hp =>
    refine .inUse (ha.supervisor ▸ hv) (hn.trans ha.length.symm) (ha.stored.trans hs) (htorn ht) ?_
    rw [ha.phase]
    exact hp.imp_right (And.imp_right (howes _))
  | closedDown hv hn hs ht hp =>
    exact .closedDown (ha.supervisor ▸ hv) (hn.trans ha.length.symm) (ha.stored.trans hs) (htorn ht) (ha.phase.trans hp)

private theorem Standing.attempts (h : k.Standing live lost) {phase : Phase} {v : Supervisor}
    (hv : k.supervisor.isAtRest = true) (hv' : v.isAtRest = true) (hlive : phase ≠ .live) (hclosed : phase ≠ .closed) :
    ({ k.setPhase phase with supervisor := v } : Connection).Standing live lost := by
  obtain ⟨hs, ht, hp, rfl, rfl⟩ := h.stage.of_isAtRest hv
  have hlength : ({ k.setPhase phase with supervisor := v } : Connection).sessions.length = k.sessions.length :=
    congrArg List.length (sessions_setPhase phase)
  have hphase := phase_setPhase_eq k phase
  refine ⟨?_, ?_, ?_⟩
  · rw [hphase, shutdown_setPhase, ← h.closed]
    split <;> simp_all
  · rintro s rfl
    cases hv'
  · rw [← hlength]
    refine .atRest hv' ((stored_setPhase phase).trans hs) (fun s => (isTornDown_setPhase phase s).trans (ht s)) ?_
    rw [hphase]
    split
    · simp
    · exact hlive

/-- A supervisor at rest that sees the shutdown ends with the connection closed. -/
private theorem Standing.retires (h : k.Standing live lost) (hv : k.supervisor.isAtRest = true)
    (hd : k.shutdown = true) :
    ({ k.setPhase .closed with supervisor := .ended } : Connection).Standing live lost := by
  obtain ⟨hs, ht, hp, rfl, rfl⟩ := h.stage.of_isAtRest hv
  rw [setPhase_of_closed (h.closed.mpr hd)]
  exact ⟨h.closed, nofun, .atRest rfl hs ht hp⟩

private theorem Standing.engages (h : k.Standing live lost) {session : Session} (hv : k.supervisor.isAtRest = true)
    (ht : session.tornDown = false) :
    ({ k with sessions := k.sessions ++ [session], supervisor := .engaged k.sessions.length } :
      Connection).Standing live lost := by
  obtain ⟨hs, htorn, hp, rfl, rfl⟩ := h.stage.of_isAtRest hv
  refine ⟨h.closed, nofun, .engaged rfl (by simp) hs (fun s => ?_) hp⟩
  rw [isTornDown_concat ht, htorn, Bool.true_and]

private theorem Standing.checks (h : k.Standing live lost) (hv : k.supervisor = .checking s) :
    ({ k with supervisor := if k.shutdown then .leaving s true else .reading s } : Connection).Standing live lost := by
  have hlive : (if k.shutdown then Supervisor.leaving s true else .reading s).liveSession? = some s := by
    split <;> rfl
  refine ⟨h.closed, fun s' hs' => ?_, ?_⟩
  · by_cases hd : k.shutdown = true
    · exact hd
    · rw [if_neg hd] at hs'
      cases hs'
  · have hv' : k.supervisor.liveSession? = some s := by rw [hv]; rfl
    obtain ⟨hn, rfl, ⟨hs, ht, hp, rfl⟩ | ⟨hs, ht, hp, rfl⟩⟩ := h.stage.of_liveSession? hv'
    · refine .inUse hlive hn hs ht (hp.imp_right fun hc => ⟨hc.1, hc.2.1, .inr ?_⟩)
      exact if_pos hc.2.1
    · exact .closedDown hlive hn hs ht hp

private theorem Standing.stopsReading (h : k.Standing live lost) (hv : k.supervisor = .reading s) :
    ({ k with supervisor := .leaving s false } : Connection).Standing live lost := by
  refine ⟨h.closed, nofun, ?_⟩
  have hv' : k.supervisor.liveSession? = some s := by rw [hv]; rfl
  obtain ⟨hn, rfl, ⟨hs, ht, hp, rfl⟩ | ⟨hs, ht, hp, rfl⟩⟩ := h.stage.of_liveSession? hv'
  · refine .inUse rfl hn hs ht (.inl (hp.resolve_right ?_))
    -- a supervisor that reads has seen that the connection was not closed
    rintro ⟨-, -, ho | ho⟩ <;> cases hv.symm.trans ho
  · exact .closedDown rfl hn hs ht hp

private theorem Standing.turns (h : k.Standing live lost) (ht : k.Turns k') : k'.Standing live lost := by
  cases ht with
  | attempts hv hv' _ hlive hclosed => exact h.attempts hv hv' hlive hclosed
  | retires hv hd => exact h.retires hv hd
  | engages hv ht => exact h.engages (by rw [hv]; rfl) ht
  | checks hv => exact h.checks hv
  | stopsReading hv => exact h.stopsReading hv

private theorem Standing.goesLive (h : k.Standing live lost) (hv : k.supervisor = .engaged s) :
    ({ ({ k with supervisor := .busy, stored := some s } : Connection).setPhase .live with
      supervisor := .checking s } : Connection).Standing (s + 1) s := by
  obtain ⟨hn, -, ht, hp, -⟩ := h.stage.of_engaged hv
  have hphase := phase_setPhase_eq { k with supervisor := .busy, stored := some s } .live
  have htorn := isTornDown_setPhase (k := { k with supervisor := .busy, stored := some s }) .live
  refine ⟨?_, nofun, .inUse rfl ?_ (stored_setPhase _) (fun s' => (htorn s').trans (ht s')) ?_⟩
  · rw [hphase, shutdown_setPhase]
    refine Iff.trans ?_ h.closed
    split <;> simp_all
  · rw [sessions_setPhase]
    exact hn
  · rw [hphase]
    split
    · rename_i hc
      refine .inr ⟨rfl, ?_, .inl rfl⟩
      rw [shutdown_setPhase]
      exact h.closed.mp hc
    · exact .inl rfl

/-- What a supervisor does after a teardown: it has no session any more. -/
private theorem standing_afterParting {last : Bool} (hclosed : k.phase = .closed ↔ k.shutdown = true)
    (hlast : last = true → k.phase = .closed) (hs : k.stored = none) (ht : ∀ s, k.isTornDown s = true)
    (hp : k.phase ≠ .live) : (k.afterParting last).Standing k.sessions.length k.sessions.length := by
  have hlast' : ∀ {v : Supervisor}, v.isAtRest = true → ∀ s, v = .leaving s true → k.shutdown = true := by
    rintro v hv s rfl
    cases hv
  cases last with
  | false => exact ⟨hclosed, hlast' rfl, .atRest rfl hs ht hp⟩
  | true =>
    have hsame : k.afterParting true = { k with supervisor := .ended } := by
      rw [afterParting, if_pos rfl, setPhase_of_closed (hlast rfl)]
    rw [hsame]
    exact ⟨hclosed, hlast' rfl, .atRest rfl hs ht hp⟩

/-- A teardown of a session that the owner did not tear down. -/
theorem Standing.tearsDown (h : k.Standing live lost) {last : Bool} (hv : k.supervisor = .leaving s last)
    (hs : k.stored = some s) :
    ((({ k with supervisor := .busy } : Connection).afterTeardown s).afterParting last).Standing (s + 1) (s + 1) := by
  have hv' : k.supervisor.liveSession? = some s := by rw [hv]; rfl
  obtain ⟨hn, -, ⟨-, ht, hp, -⟩ | ⟨hnone, -⟩⟩ := h.stage.of_liveSession? hv'
  · have hphase := phase_afterTeardown { k with supervisor := .busy } s
    have htorn := isTornDown_afterTeardown { k with supervisor := .busy } s
    have hlength := length_sessions_afterTeardown { k with supervisor := .busy } s
    rw [hn, ← hlength]
    refine standing_afterParting ?_ ?_ ?_ (fun s' => ?_) ?_
    · rw [hphase, shutdown_afterTeardown]
      refine Iff.trans ?_ h.closed
      split <;> simp_all
    · rintro rfl
      rw [hphase]
      exact if_pos (h.closed.mpr (h.last s hv))
    · rw [stored_afterTeardown]
      exact if_pos hs
    · rw [htorn]
      by_cases he : s' = s
      · simp [he]
      · have ht' := ht s'
        rw [decide_eq_true he] at ht'
        rw [show ({ k with supervisor := .busy } : Connection).isTornDown s' = true from ht', Bool.true_or]
    · rw [hphase]
      split <;> simp
  · cases hs.symm.trans hnone

/-- A teardown of a session that the owner tore down. -/
theorem Standing.tearsDownAgain (h : k.Standing live lost) {last : Bool} (hv : k.supervisor = .leaving s last)
    (hs : k.stored = none) :
    (({ k with supervisor := .busy } : Connection).afterParting last).Standing (s + 1) (s + 1) := by
  have hv' : k.supervisor.liveSession? = some s := by rw [hv]; rfl
  obtain ⟨hn, -, ⟨hsome, -⟩ | ⟨-, ht, hp, -⟩⟩ := h.stage.of_liveSession? hv'
  · cases hs.symm.trans hsome
  · rw [hn]
    exact standing_afterParting (k := { k with supervisor := .busy }) h.closed (fun _ => hp) hs ht (by simp [hp])

/-- Closing a connection that has no session in use. -/
theorem Standing.closes (h : k.Standing live lost) (hs : k.stored = none) :
    (({ k with shutdown := true } : Connection).setPhase .closed).Standing live lost := by
  rw [setPhase_closed]
  refine ⟨by simp, fun _ _ => rfl, ?_⟩
  cases h.stage with
  | atRest hv _ ht _ => exact .atRest hv hs ht (by simp)
  | engaged hv hn _ ht _ => exact .engaged hv hn hs ht (by simp)
  | inUse _ _ hs' _ _ => cases hs.symm.trans hs'
  | closedDown hv hn _ ht _ => exact .closedDown hv hn hs ht rfl

/-- Closing a connection whose session is in use. -/
theorem Standing.closesSession (h : k.Standing live lost) (hs : k.stored = some s) :
    live = s + 1 ∧ lost = s ∧ k.isTornDown s = false ∧
      ((({ k with shutdown := true, stored := none } : Connection).afterTeardown s).setPhase .closed).Standing
        (s + 1) (s + 1) := by
  obtain ⟨hv, hn, ht, -, hlive, hlost⟩ := h.stage.of_stored hs
  have htorn := isTornDown_afterTeardown { k with shutdown := true, stored := none } s
  have hlength := length_sessions_afterTeardown { k with shutdown := true, stored := none } s
  have hstored := stored_afterTeardown { k with shutdown := true, stored := none } s
  have hdown := shutdown_afterTeardown { k with shutdown := true, stored := none } s
  have hsup := supervisor_afterTeardown { k with shutdown := true, stored := none } s
  refine ⟨hlive, hlost, by simp [ht], ?_⟩
  rw [setPhase_closed]
  refine ⟨by simp, fun _ _ => hdown, .closedDown ?_ (hn.trans hlength.symm) hstored (fun s' => ?_) rfl⟩
  · exact (congrArg Supervisor.liveSession? hsup).trans hv
  · refine (htorn s').trans ?_
    rw [show ({ k with shutdown := true, stored := none } : Connection).isTornDown s' = k.isTornDown s' from rfl, ht]
    by_cases he : s' = s <;> simp [he]

/-! ### Every event -/

private theorem range_succ_flatMap_lossOf (n : Nat) :
    (List.range (n + 1)).flatMap Move.lossOf = (List.range n).flatMap Move.lossOf ++ Move.lossOf n := by
  simp [List.range_succ]

/-- Whatever an event does to a connection, the sessions that went live on it are those of the smallest numbers, and
so are those that were lost. -/
theorem Standing.passes {moves : List Move} (h : k.Standing live lost) (hp : k.Passes moves k') :
    ∃ live' lost', k'.Standing live' lost' ∧
      List.range live ++ moves.filterMap (·.livened?) = List.range live' ∧
      (List.range lost).flatMap Move.lossOf ++ moves.filter (·.isLoss) = (List.range lost').flatMap Move.lossOf := by
  have unmoved : k'.Standing live lost → ∃ live' lost', k'.Standing live' lost' ∧
      List.range live ++ ([] : List Move).filterMap (·.livened?) = List.range live' ∧
      (List.range lost).flatMap Move.lossOf ++ ([] : List Move).filter (·.isLoss) =
        (List.range lost').flatMap Move.lossOf := fun h => ⟨live, lost, h, List.append_nil _, List.append_nil _⟩
  cases hp with
  | alike ha => exact unmoved (h.alike ha)
  | turns ht => exact unmoved (h.turns ht)
  | carriesOut hbegins =>
    cases hbegins with
    | @goesLive s hv =>
      obtain ⟨-, -, -, -, hlive, hlost⟩ := h.stage.of_engaged hv
      rw [carryOut_goingLive, hlive, hlost]
      exact ⟨s + 1, s, h.goesLive hv, List.range_succ.symm, List.append_nil _⟩
    | @tearsDown s last hv =>
      have hv' : k.supervisor.liveSession? = some s := by rw [hv]; rfl
      obtain ⟨-, hlive, ⟨hs, ht, -, hlost⟩ | ⟨hs, ht, -, hlost⟩⟩ := h.stage.of_liveSession? hv'
      · have ht' : ({ k with supervisor := .busy } : Connection).isTornDown s = false := (ht s).trans (by simp)
        rw [carryOut_teardown ht', hlive, hlost, ← hlive, hlive]
        refine ⟨s + 1, s + 1, h.tearsDown hv hs, ?_, ?_⟩
        · cases last <;> exact List.append_nil _
        · rw [range_succ_flatMap_lossOf]
          cases last <;> rfl
      · have ht' : ({ k with supervisor := .busy } : Connection).isTornDown s = true := ht s
        rw [carryOut_teardown_of_isTornDown ht', hlive, hlost]
        refine ⟨s + 1, s + 1, h.tearsDownAgain hv hs, ?_, ?_⟩
        · cases last <;> exact List.append_nil _
        · cases last <;> exact List.append_nil _
    | closes =>
      cases hs : k.stored with
      | none =>
        rw [carryOut_closing hs]
        exact ⟨live, lost, h.closes hs, List.append_nil _, List.append_nil _⟩
      | some s =>
        obtain ⟨hlive, hlost, ht, hstands⟩ := h.closesSession hs
        rw [carryOut_closing_of_stored hs ht, hlive, hlost]
        refine ⟨s + 1, s + 1, hstands, List.append_nil _, ?_⟩
        rw [range_succ_flatMap_lossOf]
        rfl

end Connection

end LockService
