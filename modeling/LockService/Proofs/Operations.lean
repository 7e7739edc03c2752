import LockService.Proofs.Sessions

/-!
# The operations under way on one connection

`OperationShape` says which operations there can be on a connection: the one of its supervisor, if it is busy, and any
number that the owner has begun. It says what is left of each of them, which a move that owners make keeps.
-/

namespace LockService

variable {k k' : Connection} {ops ops' : Nat → List Move} {due : Bool}

/-- Whether an owner who closes a connection may have to make this move. -/
def Move.isOwners : Move → Bool
  | .store _ | .joinLive _ | .assign _ => false
  | _ => true

/-- Whether a supervisor has no session. -/
def Supervisor.isAtRest : Supervisor → Bool
  | .waiting | .connecting | .handshaking _ | .ended => true
  | _ => false

/-- The session that a supervisor is about, outside its operations. -/
def Supervisor.session? : Supervisor → Option SessionId
  | .engaged s | .checking s | .reading s | .leaving s _ => some s
  | _ => none

theorem Supervisor.session?_eq_none {supervisor : Supervisor} (h : supervisor.isAtRest = true) :
    supervisor.session? = none := by
  cases supervisor <;> first | rfl | cases h

/-- What is left of an owner's operation. As long as the connection is not closed, it has not made its first move. -/
structure Owned (k : Connection) (moves : List Move) : Prop where
  only : ∀ m ∈ moves, m.isOwners = true
  cleared : ∀ s, .clearStored s ∈ moves → s < k.sessions.length ∧ k.isTornDown s = true
  begun : k.shutdown = false → moves = [] ∨ moves = Move.closing

/-- What is left of the operation of a supervisor. -/
inductive Working (k : Connection) : List Move → Prop where
  | storing {s : SessionId} (latest : s + 1 = k.sessions.length) :
    Working k [.store s, .setPhase .live, .joinLive s, .assign (.checking s)]
  | announcing {s : SessionId} (latest : s + 1 = k.sessions.length) :
    Working k [.setPhase .live, .joinLive s, .assign (.checking s)]
  | joining {s : SessionId} (latest : s + 1 = k.sessions.length) : Working k [.joinLive s, .assign (.checking s)]
  | joined {s : SessionId} (latest : s + 1 = k.sessions.length) : Working k [.assign (.checking s)]
  | marking {s : SessionId} {moves : List Move} {supervisor : Supervisor} (latest : s + 1 = k.sessions.length)
    (only : ∀ m ∈ moves, m.isOwners = true) (atRest : supervisor.isAtRest = true) :
    Working k (.markTornDown s :: (moves ++ [.assign supervisor]))
  | leaving {moves : List Move} {supervisor : Supervisor} (all : ∀ s, k.isTornDown s = true)
    (only : ∀ m ∈ moves, m.isOwners = true) (atRest : supervisor.isAtRest = true) :
    Working k (moves ++ [.assign supervisor])

/-- The operations under way: that of the supervisor, if it is busy, and those of owners. -/
structure OperationShape (worker : Option Nat) (k : Connection) (ops : Nat → List Move) : Prop where
  atRest : k.supervisor.isAtRest = true → ∀ s, k.isTornDown s = true
  atWork : ∀ s, k.supervisor.session? = some s → s + 1 = k.sessions.length
  busy : k.supervisor = .busy ↔ worker.isSome = true
  works : ∀ n, worker = some n → Working k (ops n)
  owned : ∀ n, worker ≠ some n → Owned k (ops n)

theorem Owned.mono {moves : List Move} (h : Owned k moves)
    (ht : ∀ s, s < k.sessions.length → k.isTornDown s = true → k'.isTornDown s = true)
    (hl : k.sessions.length ≤ k'.sessions.length) (hd : k'.shutdown = false → k.shutdown = false) :
    Owned k' moves where
  only := h.only
  cleared s hs := by
    obtain ⟨hlt, hs⟩ := h.cleared s hs
    exact ⟨Nat.lt_of_lt_of_le hlt hl, ht s hlt hs⟩
  begun hsh := h.begun (hd hsh)

theorem Working.mono {moves : List Move} (h : Working k moves)
    (ht : ∀ s, k.isTornDown s = true → k'.isTornDown s = true) (hl : k'.sessions.length = k.sessions.length) :
    Working k' moves := by
  cases h with
  | storing latest => exact .storing (latest.trans hl.symm)
  | announcing latest => exact .announcing (latest.trans hl.symm)
  | joining latest => exact .joining (latest.trans hl.symm)
  | joined latest => exact .joined (latest.trans hl.symm)
  | marking latest only atRest => exact .marking (latest.trans hl.symm) only atRest
  | leaving all only atRest => exact .leaving (fun s => ht s (all s)) only atRest

section Shape

variable {worker : Option Nat} {n : Nat} {m : Move} {rest more : List Move}

/-- The moves that only a supervisor makes are not ahead unless its own operation has them. -/
theorem OperationShape.not_isAhead (h : OperationShape worker k ops) {x : Move} (hx : x.isOwners = false)
    (hw : ∀ n, worker = some n → x ∉ ops n) : ¬ x.IsAhead ops := by
  rintro ⟨n, hm⟩
  by_cases hn : worker = some n
  · exact hw n hn hm
  · have := (h.owned n hn).only x hm
    rw [hx] at this
    cases this

/-- A move that neither touches the supervisor nor makes a session keeps the operations in shape. -/
theorem OperationShape.update (h : OperationShape worker k ops) (hv : k'.supervisor = k.supervisor)
    (ht : ∀ s, k.isTornDown s = true → k'.isTornDown s = true) (hl : k'.sessions.length = k.sessions.length)
    (hd : k'.shutdown = false → k.shutdown = false) {moves : List Move} (hw : worker = some n → Working k' moves)
    (ho : worker ≠ some n → Owned k' moves) : OperationShape worker k' (Function.update ops n moves) where
  atRest hr s := ht s (h.atRest (hv ▸ hr) s)
  atWork s hs := hl ▸ h.atWork s (hv ▸ hs)
  busy := hv ▸ h.busy
  works n' hn' := by
    by_cases he : n' = n
    · subst he
      rw [Function.update_self]
      exact hw hn'
    · rw [Function.update_of_ne he]
      exact (h.works n' hn').mono ht hl
  owned n' hn' := by
    by_cases he : n' = n
    · subst he
      rw [Function.update_self]
      exact ho hn'
    · rw [Function.update_of_ne he]
      exact (h.owned n' hn').mono (fun s _ => ht s) (Nat.le_of_eq hl.symm) hd

/-- An owner's move leaves the supervisor alone and only ever tears sessions down. -/
theorem Move.onConnection_owners (hm : m.isOwners = true) :
    (m.onConnection k).2.supervisor = k.supervisor ∧
      (∀ s, k.isTornDown s = true → (m.onConnection k).2.isTornDown s = true) ∧
      (m.onConnection k).2.sessions.length = k.sessions.length ∧
      ((m.onConnection k).2.shutdown = false → k.shutdown = false ∧ m ≠ .cancelShutdown) ∧
      (∀ x ∈ (m.onConnection k).1, x.isOwners = true) ∧
      (∀ s, .clearStored s ∈ (m.onConnection k).1 →
        s < k.sessions.length ∧ (m.onConnection k).2.isTornDown s = true) := by
  have none : ∀ x ∈ ([] : List Move), x.isOwners = true := fun _ hx => absurd hx List.not_mem_nil
  have clear : ∀ {k' : Connection} (s : SessionId), .clearStored s ∈ ([] : List Move) →
      s < k.sessions.length ∧ k'.isTornDown s = true := fun _ hs => absurd hs List.not_mem_nil
  cases m with
  | store s => cases hm
  | joinLive s => cases hm
  | assign supervisor => cases hm
  | setPhase phase =>
    refine ⟨Connection.supervisor_setPhase phase, fun s ht => (Connection.isTornDown_setPhase phase s).trans ht,
      congrArg List.length (Connection.sessions_setPhase phase), fun h => ⟨?_, by simp⟩, none, clear⟩
    exact (Connection.shutdown_setPhase phase).symm.trans h
  | cancelShutdown =>
    refine ⟨rfl, fun _ ht => ht, rfl, fun h => ?_, none, clear⟩
    cases h
  | takeStored =>
    refine ⟨rfl, fun _ ht => ht, rfl, fun h => ⟨h, by simp⟩, ?_, ?_⟩
    all_goals
      simp only [Move.onConnection]
      cases k.stored <;> simp [Move.teardown, Move.isOwners]
  | markTornDown s =>
    simp only [Move.onConnection]
    split
    · exact ⟨rfl, fun _ ht => ht, rfl, fun h => ⟨h, by simp⟩, none, clear⟩
    · rename_i hs
      refine ⟨rfl, fun s' ht => ?_, by simp [Connection.changeSession], fun h => ⟨h, by simp⟩, ?_, ?_⟩
      · rw [Connection.isTornDown_tearDown, ht]
        rfl
      · simp [Move.isOwners]
      · intro s' hs'
        have he : s' = s := by simpa using hs'
        rw [Connection.isTornDown_tearDown, he]
        exact ⟨Connection.lt_of_not_isTornDown (by simpa using hs), by simp⟩
  | cancelSession s =>
    refine ⟨rfl, fun s' ht => ?_, by simp [Move.onConnection, Connection.changeSession], fun h => ⟨h, by simp⟩,
      none, clear⟩
    rw [← ht]
    exact Connection.isTornDown_changeSession s s' (fun session => { session with cancelled := true }) fun _ => rfl
  | clearStored s =>
    simp only [Move.onConnection]
    split <;> exact ⟨rfl, fun _ ht => ht, rfl, fun h => ⟨h, by simp⟩, none, clear⟩
  | drain s => exact ⟨rfl, fun _ ht => ht, rfl, fun h => ⟨h, by simp⟩, none, clear⟩
  | leaveLive => exact ⟨rfl, fun _ ht => ht, rfl, fun h => ⟨h, by simp⟩, none, clear⟩

private theorem Owned.advance (h : Owned k (m :: rest)) (hm : m.isOwners = true) :
    Owned (m.onConnection k).2 ((m.onConnection k).1 ++ rest) := by
  obtain ⟨-, ht, hl, hd, hmore, hclear⟩ := Move.onConnection_owners (k := k) hm
  refine ⟨fun x hx => ?_, fun s hs => ?_, fun hsh => ?_⟩
  · rcases List.mem_append.mp hx with hx | hx
    · exact hmore x hx
    · exact h.only x (List.mem_cons_of_mem _ hx)
  · rcases List.mem_append.mp hs with hs | hs
    · exact hl ▸ hclear s hs
    · obtain ⟨hlt, hs⟩ := h.cleared s (List.mem_cons_of_mem _ hs)
      exact ⟨hl ▸ hlt, ht s hs⟩
  · obtain ⟨hsh, hne⟩ := hd hsh
    rcases h.begun hsh with he | he
    · cases he
    · exact absurd (List.cons.inj he).1 hne

/-- A supervisor that makes an owner's move goes on with its operation. -/
private theorem Working.advance (h : Working k (m :: rest)) (hm : m.isOwners = true)
    (hlat : ∀ s, k.isTornDown s = false → s + 1 = k.sessions.length) :
    Working (m.onConnection k).2 ((m.onConnection k).1 ++ rest) := by
  obtain ⟨-, ht, hl, -, hmore, -⟩ := Move.onConnection_owners (k := k) hm
  generalize hms : m :: rest = moves at h
  cases h with
  | storing latest =>
    cases hms
    cases hm
  | announcing latest =>
    cases hms
    exact .joining (latest.trans hl.symm)
  | joining latest =>
    cases hms
    cases hm
  | joined latest =>
    cases hms
    cases hm
  | @marking s moves supervisor latest only atRest =>
    cases hms
    -- the supervisor marks the latest session, and the older ones are torn down already
    have hall : ∀ s', ((Move.markTornDown s).onConnection k).2.isTornDown s' = true := by
      intro s'
      by_cases hs' : k.isTornDown s' = true
      · exact ht s' hs'
      · have he : s' = s := Nat.succ.inj ((hlat s' (by simpa using hs')).trans latest.symm)
        subst he
        simp only [Move.onConnection, hs', if_false, Bool.false_eq_true, Connection.isTornDown_tearDown]
        simp
    rw [← List.append_assoc]
    refine .leaving hall (fun x hx => ?_) atRest
    rcases List.mem_append.mp hx with hx | hx
    · exact hmore x hx
    · exact only x hx
  | @leaving moves supervisor all only atRest =>
    cases moves with
    | nil =>
      cases hms
      cases hm
    | cons x moves =>
      rw [List.cons_append] at hms
      obtain ⟨rfl, rfl⟩ := List.cons.inj hms
      rw [← List.append_assoc]
      refine .leaving (fun s => ht s (all s)) (fun x hx => ?_) atRest
      rcases List.mem_append.mp hx with hx | hx
      · exact hmore x hx
      · exact only x (List.mem_cons_of_mem _ hx)

/-- An owner's move keeps the operations in shape. -/
theorem OperationShape.advance (h : OperationShape worker k ops) (hn : ops n = m :: rest) (hm : m.isOwners = true)
    (hlat : ∀ s, k.isTornDown s = false → s + 1 = k.sessions.length) :
    OperationShape worker (m.onConnection k).2 (Function.update ops n ((m.onConnection k).1 ++ rest)) := by
  obtain ⟨hv, ht, hl, hd, -, -⟩ := Move.onConnection_owners (k := k) hm
  refine h.update hv ht hl (fun hsh => (hd hsh).1) (fun hw => ?_) fun hw => ?_
  · exact (hn ▸ h.works n hw).advance hm hlat
  · exact (hn ▸ h.owned n hw).advance hm

/-- A supervisor at a teardown has no session to join the live set with. -/
private theorem Working.not_joins {s s' : SessionId} (h : Working k (.markTornDown s :: rest)) :
    .joinLive s' ∉ Move.markTornDown s :: rest := by
  have owners : ∀ {moves : List Move} {supervisor : Supervisor}, (∀ m ∈ moves, m.isOwners = true) →
      .joinLive s' ∉ moves ++ [.assign supervisor] := by
    intro moves supervisor only hm
    rcases List.mem_append.mp hm with hm | hm
    · cases only _ hm
    · simp at hm
  generalize hms : Move.markTornDown s :: rest = moves at h
  cases h with
  | storing latest => cases hms
  | announcing latest => cases hms
  | joining latest => cases hms
  | joined latest => cases hms
  | marking latest only atRest =>
    rw [List.mem_cons, not_or]
    exact ⟨by simp, owners only⟩
  | leaving all only atRest => exact owners only

/-- What a supervisor does after it has marked its session comes when all sessions are torn down. -/
theorem Working.all_torn (h : Working k (m :: rest)) (hm : m.isOwners = true) (hp : ∀ phase, m ≠ .setPhase phase)
    (hs : ∀ s, m ≠ .markTornDown s) : ∀ s, k.isTornDown s = true := by
  generalize hms : m :: rest = moves at h
  cases h with
  | storing latest =>
    cases hms
    cases hm
  | announcing latest =>
    cases hms
    exact absurd rfl (hp _)
  | joining latest =>
    cases hms
    cases hm
  | joined latest =>
    cases hms
    cases hm
  | marking latest only atRest =>
    cases hms
    exact absurd rfl (hs _)
  | leaving all only atRest => exact all

/-- As long as a connection is not closed, only its supervisor is past the beginning of an operation. -/
theorem OperationShape.worker_of_open (h : OperationShape worker k ops) (hd : k.shutdown = false)
    (hn : ops n = m :: rest) (hm : m ≠ .cancelShutdown) : worker = some n := by
  refine Decidable.byContradiction fun hw => ?_
  rcases (h.owned n hw).begun hd with he | he
  · rw [hn] at he
    cases he
  · rw [hn] at he
    exact hm (List.cons.inj he).1

/-- While a teardown begins on a connection that is not closed, there is no session to join the live set with. -/
private theorem OperationShape.not_unjoined (h : OperationShape worker k ops) (hsh : k.shutdown = false) {s : SessionId}
    (hn : ops n = .markTornDown s :: rest) (s' : SessionId) : ¬ Unjoined k ops s' := by
  -- no owner tears down before the connection is closed, so it is the supervisor that does
  have hw := h.worker_of_open hsh hn (by simp)
  rintro (hv | hj)
  · have hbusy := h.busy.mpr (by rw [hw]; rfl)
    rw [hv] at hbusy
    cases hbusy
  · refine h.not_isAhead rfl (fun n' hn' => ?_) hj
    rw [hw] at hn'
    cases hn'
    rw [hn]
    exact (hn ▸ h.works n hw).not_joins

/-- What an owner's move makes of whether the connection is due to be in the live set. -/
theorem SessionFacts.advance (h : SessionFacts k ops due) (hsh : OperationShape worker k ops) (hn : ops n = m :: rest)
    (hm : m.isOwners = true) : SessionFacts (m.onConnection k).2 (Function.update ops n ((m.onConnection k).1 ++ rest))
      (if m = .leaveLive then k.liveSession?.isSome else due) := by
  cases m with
  | store s => cases hm
  | joinLive s => cases hm
  | assign supervisor => cases hm
  | setPhase phase =>
    refine h.move hn (Connection.isTornDown_setPhase phase) (by simp [Move.onConnection]) (by simp [Move.onConnection])
      (by simp [Move.onConnection]) (by simp [Move.onConnection]) (by simp) (by simp) (by simp) (by simp)
  | cancelShutdown =>
    refine h.move hn (fun _ => rfl) rfl rfl (fun hd => ?_) rfl (by simp) (by simp) (by simp) (by simp)
    cases hd
  | takeStored => exact h.takeStored hn
  | markTornDown s =>
    by_cases ht : k.isTornDown s = true
    · rw [Move.onConnection, if_pos ht]
      refine h.move hn (fun _ => rfl) rfl rfl (fun h => h) rfl (by simp) (by simp) ?_ (by simp)
      rintro s' halive he
      cases he
      rw [ht] at halive
      cases halive
    · rw [Move.onConnection, if_neg ht]
      exact h.markTornDown hn (fun hopen => hsh.not_unjoined hopen hn) rfl
  | cancelSession s =>
    refine h.move hn ?_ (by simp [Move.onConnection, Connection.changeSession]) rfl (fun h => h) rfl
      (by simp) (by simp) (by simp) (by simp)
    intro s'
    exact Connection.isTornDown_changeSession s s' (fun session => { session with cancelled := true }) fun _ => rfl
  | clearStored s =>
    refine h.clearStored hn ?_
    -- whoever clears a session has marked it before
    by_cases hw : worker = some n
    · exact (hn ▸ hsh.works n hw : Working k (.clearStored s :: rest)).all_torn rfl (by simp) (by simp) s
    · exact ((hsh.owned n hw).cleared s (by rw [hn]; exact List.mem_cons_self)).2
  | drain s => exact h.move hn (fun _ => rfl) rfl rfl (fun h => h) rfl (by simp) (by simp) (by simp) (by simp)
  | leaveLive => exact h.leaveLive hn

/-! ### What a supervisor does -/

/-- A move that is not an owner's is the worker's. -/
private theorem OperationShape.eq_worker (h : OperationShape worker k ops) (hn : ops n = m :: rest)
    (hm : m.isOwners = false) : worker = some n := by
  refine Decidable.byContradiction fun hw => ?_
  have hown := (h.owned n hw).only m (by rw [hn]; exact List.mem_cons_self)
  rw [hm] at hown
  cases hown

/-- While an operation works for the supervisor it is busy. -/
theorem OperationShape.busy_of_worker (h : OperationShape worker k ops) (hw : worker = some n) :
    k.supervisor = .busy :=
  h.busy.mpr (by rw [hw]; rfl)

/-- Whoever is at a move that is not an owner's works for the supervisor. -/
theorem OperationShape.at_work (h : OperationShape worker k ops) (hn : ops n = m :: rest)
    (hm : m.isOwners = false) : worker = some n ∧ k.supervisor = .busy ∧ Working k (m :: rest) := by
  have hw := h.eq_worker hn hm
  exact ⟨hw, h.busy_of_worker hw, hn ▸ h.works n hw⟩

/-- A session that is about to be stored is the latest, and going live is what follows. -/
theorem Working.of_store {s : SessionId} (h : Working k (.store s :: rest)) :
    s + 1 = k.sessions.length ∧ rest = [.setPhase .live, .joinLive s, .assign (.checking s)] := by
  generalize hms : Move.store s :: rest = moves at h
  cases h with
  | storing latest =>
    cases hms
    exact ⟨latest, rfl⟩
  | announcing latest => cases hms
  | joining latest => cases hms
  | joined latest => cases hms
  | marking latest only atRest => cases hms
  | @leaving moves supervisor all only atRest =>
    cases moves with
    | nil => cases hms
    | cons x moves =>
      cases hms
      cases only _ List.mem_cons_self

/-- A session that is about to join the live set is the latest, and is checked next. -/
theorem Working.of_joinLive {s : SessionId} (h : Working k (.joinLive s :: rest)) :
    s + 1 = k.sessions.length ∧ rest = [.assign (.checking s)] := by
  generalize hms : Move.joinLive s :: rest = moves at h
  cases h with
  | storing latest => cases hms
  | announcing latest => cases hms
  | joining latest =>
    cases hms
    exact ⟨latest, rfl⟩
  | joined latest => cases hms
  | marking latest only atRest => cases hms
  | @leaving moves supervisor all only atRest =>
    cases moves with
    | nil => cases hms
    | cons x moves =>
      cases hms
      cases only _ List.mem_cons_self

/-- The supervisor's last move sends it on to check the latest session, or to rest when all are torn down. -/
theorem Working.of_assign {supervisor : Supervisor} (h : Working k (.assign supervisor :: rest)) : rest = [] ∧
    ((∃ s, supervisor = .checking s ∧ s + 1 = k.sessions.length) ∨
      (supervisor.isAtRest = true ∧ ∀ s, k.isTornDown s = true)) := by
  generalize hms : Move.assign supervisor :: rest = moves at h
  cases h with
  | storing latest => cases hms
  | announcing latest => cases hms
  | joining latest => cases hms
  | joined latest =>
    cases hms
    exact ⟨rfl, .inl ⟨_, rfl, latest⟩⟩
  | marking latest only atRest => cases hms
  | @leaving moves supervisor all only atRest =>
    cases moves with
    | nil =>
      cases hms
      exact ⟨rfl, .inr ⟨atRest, all⟩⟩
    | cons x moves =>
      cases hms
      cases only _ List.mem_cons_self

end Shape

end LockService
