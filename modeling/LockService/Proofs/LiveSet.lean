import LockService.Proofs.Operations

/-!
# When a connection is due to be in the live set

A connection is `Sane` when its sessions and the operations under way on it are as they should be. Every move and every
turn of the supervisor keeps this, and when no operation is under way the connection is due to be in the live set
exactly when a live session is in use (`Sane.due_iff`).
-/

namespace LockService

variable {k k' : Connection} {ops ops' : Nat → List Move} {due : Bool}

/-- What holds of a connection and the operations under way on it at every moment of an interplay. -/
def Sane (k : Connection) (ops : Nat → List Move) (due : Bool) : Prop :=
  ∃ worker, OperationShape worker k ops ∧ SessionFacts k ops due

/-- Whether the connection is due to be in the live set after a move. -/
def Move.dueAfter (k : Connection) (leaving due : Bool) : Move → Bool
  | .joinLive s => !(k.isTornDown s && !leaving)
  | .leaveLive => k.liveSession?.isSome
  | _ => due

section Sane

variable {n : Nat} {m : Move} {rest : List Move}

/-- A connection starts without a session, and its supervisor at rest. -/
theorem sane_fresh (address : Address) : Sane { address } (fun _ => []) false := by
  have torn : ∀ s, ({ address } : Connection).isTornDown s = true := fun _ => rfl
  have nothing : ∀ {x : Move}, ¬ x.IsAhead fun _ => [] := by
    rintro x ⟨n, hx⟩
    cases hx
  have joined : ∀ s, ¬ Unjoined { address } (fun _ => []) s := by
    rintro s (hv | hm)
    · cases hv
    · exact nothing hm
  refine ⟨none, ⟨fun _ => torn, nofun, ⟨nofun, nofun⟩, nofun, fun n _ => ?_⟩, ⟨?_, nofun, fun _ _ => nofun, ?_,
    nofun, fun _ _ _ => nofun, fun _ s hu => absurd hu (joined s)⟩⟩
  · exact ⟨nofun, nofun, fun _ => .inl rfl⟩
  · intro s halive
    rw [torn s] at halive
    cases halive
  · intro s halive
    rw [torn s] at halive
    cases halive

/-- A session is in use as soon as the supervisor has stored it. -/
private theorem Sane.store (h : Sane k ops due) {s : SessionId} (hn : ops n = .store s :: rest) :
    Sane { k with stored := some s } (Function.update ops n rest) due := by
  obtain ⟨worker, hsh, hf⟩ := h
  obtain ⟨hw, hbusy, hwork⟩ := hsh.at_work hn rfl
  obtain ⟨latest, rfl⟩ := hwork.of_store
  let k₁ : Connection := { k with stored := some s }
  have hv : k₁.supervisor = k.supervisor := rfl
  have hsh' : OperationShape worker k₁ (Function.update ops n [.setPhase .live, .joinLive s, .assign (.checking s)]) :=
    hsh.update hv (fun _ ht => ht) rfl (fun hd => hd) (fun _ => .announcing latest) fun hne => absurd hw hne
  refine ⟨worker, hsh', hf.store hn latest (by rw [hbusy]; simp) (by simp) ?_⟩
  refine hsh'.not_isAhead rfl fun n' hn' => ?_
  rw [hw] at hn'
  cases hn'
  rw [Function.update_self]
  simp

/-- After a supervisor has joined the live set with a session, the connection is due to be there, unless the session
was torn down meanwhile and nobody is going to leave the live set for it. -/
private theorem Sane.joinLive (h : Sane k ops due) {s : SessionId} (hn : ops n = .joinLive s :: rest) {leaving : Bool}
    (hleave : leaving = true ↔ Move.leaveLive.IsAhead ops) :
    Sane k (Function.update ops n rest) (!(k.isTornDown s && !leaving)) := by
  obtain ⟨worker, hsh, hf⟩ := h
  obtain ⟨hw, hbusy, hwork⟩ := hsh.at_work hn rfl
  obtain ⟨latest, rfl⟩ := hwork.of_joinLive
  refine ⟨worker, hsh.update rfl (fun _ ht => ht) rfl (fun hd => hd) (fun _ => .joined latest)
    fun hne => absurd hw hne, hf.joinLive hn latest ?_ hleave⟩
  rintro (hv | hu)
  · rw [hbusy] at hv
    cases hv
  · refine hsh.not_isAhead rfl (fun n' hn' => ?_) hu
    rw [hw] at hn'
    cases hn'
    rw [hn]
    simp

/-- A supervisor that has ended its operation is about the latest session, or at rest when all are torn down. -/
private theorem OperationShape.assign {worker : Option Nat} (h : OperationShape worker k ops)
    (hw : worker = some n) {supervisor : Supervisor}
    (hv : (∃ s, supervisor = .checking s ∧ s + 1 = k.sessions.length) ∨
      (supervisor.isAtRest = true ∧ ∀ s, k.isTornDown s = true)) :
    OperationShape none { k with supervisor } (Function.update ops n []) where
  atRest hrest := by
    rcases hv with ⟨s, rfl, -⟩ | ⟨-, hall⟩
    · cases hrest
    · exact hall
  atWork s hs := by
    have hs : supervisor.session? = some s := hs
    rcases hv with ⟨s', rfl, latest⟩ | ⟨hrest, -⟩
    · cases hs
      exact latest
    · rw [Supervisor.session?_eq_none hrest] at hs
      cases hs
  busy := by
    show supervisor = .busy ↔ false = true
    rcases hv with ⟨s', rfl, -⟩ | ⟨hrest, -⟩
    · simp
    · refine ⟨fun he => ?_, nofun⟩
      rw [he] at hrest
      cases hrest
  works := nofun
  owned n' _ := by
    by_cases hn' : n' = n
    · subst hn'
      rw [Function.update_self]
      exact ⟨nofun, nofun, fun _ => .inl rfl⟩
    · rw [Function.update_of_ne hn']
      refine (h.owned n' fun he => hn' ?_).mono (fun _ _ ht => ht) (Nat.le_refl _) fun hd => hd
      rw [hw] at he
      exact (Option.some.inj he).symm

/-- A supervisor ends its operation. -/
private theorem Sane.assign (h : Sane k ops due) {supervisor : Supervisor} (hn : ops n = .assign supervisor :: rest) :
    Sane { k with supervisor } (Function.update ops n rest) due := by
  obtain ⟨worker, hsh, hf⟩ := h
  obtain ⟨hw, hbusy, hwork⟩ := hsh.at_work hn rfl
  obtain ⟨rfl, hv⟩ := hwork.of_assign
  have hnot : ∀ s, supervisor ≠ .engaged s := by
    rintro s rfl
    rcases hv with ⟨s', hs', -⟩ | ⟨hrest, -⟩
    · cases hs'
    · cases hrest
  have hk : ∀ s, k.supervisor ≠ .engaged s := by
    intro s
    rw [hbusy]
    simp
  have ahead : ∀ {x : Move}, x ≠ .assign supervisor → (x.IsAhead (Function.update ops n []) ↔ x.IsAhead ops) :=
    fun hx => Move.isAhead_drop_iff hn hx
  refine ⟨none, hsh.assign hw hv, hf.frame (fun _ => rfl) rfl rfl (fun hd => hd) (fun s => ?_) (fun s => ?_)
    (fun s _ hm => ?_) fun hm => ?_⟩
  · exact or_congr (iff_of_false (hnot s) (hk s)) (ahead (by simp))
  · exact or_congr (iff_of_false (hnot s) (hk s)) (ahead (by simp))
  · exact (ahead (by simp)).mpr hm
  · exact (ahead (by simp)).mpr hm

/-- Every move of an operation under way leaves a connection sane. -/
theorem Sane.move (h : Sane k ops due) (hn : ops n = m :: rest) {leaving : Bool}
    (hleave : leaving = true ↔ Move.leaveLive.IsAhead ops) :
    Sane (m.onConnection k).2 (Function.update ops n ((m.onConnection k).1 ++ rest)) (m.dueAfter k leaving due) := by
  have owners : m.isOwners = true → Sane (m.onConnection k).2
      (Function.update ops n ((m.onConnection k).1 ++ rest)) (if m = .leaveLive then k.liveSession?.isSome else due) := by
    intro hm
    obtain ⟨worker, hsh, hf⟩ := h
    exact ⟨worker, hsh.advance hn hm hf.latest, hf.advance hsh hn hm⟩
  cases m with
  | store s => exact h.store hn
  | joinLive s => exact h.joinLive hn hleave
  | assign supervisor => exact h.assign hn
  | _ => exact owners rfl

private theorem Connection.isTornDown_of_sessions_eq (hs : k'.sessions = k.sessions) (s : SessionId) :
    k'.isTornDown s = k.isTornDown s := by
  rw [Connection.isTornDown, hs, Connection.isTornDown]

/-- A supervisor that is at no operation goes on to something else, without a new session. -/
theorem Sane.turn (h : Sane k ops due) (hs : k'.sessions = k.sessions) (ht : k'.stored = k.stored)
    (hd : k'.shutdown = k.shutdown) (hv : k.supervisor ≠ .busy) (hv' : k'.supervisor ≠ .busy)
    (hne : ∀ s, k.supervisor ≠ .engaged s) (hne' : ∀ s, k'.supervisor ≠ .engaged s)
    (hrest : k'.supervisor.isAtRest = true → k.supervisor.isAtRest = true)
    (hwork : ∀ s, k'.supervisor.session? = some s → k.supervisor.session? = some s) : Sane k' ops due := by
  obtain ⟨worker, hsh, hf⟩ := h
  have htorn := Connection.isTornDown_of_sessions_eq hs
  have hlen : k'.sessions.length = k.sessions.length := congrArg List.length hs
  have htorn' : ∀ s, k.isTornDown s = true → k'.isTornDown s = true := fun s => (htorn s).trans
  have hopen : k'.shutdown = false → k.shutdown = false := fun h => hd.symm.trans h
  refine ⟨worker, ⟨?_, ?_, ?_, ?_, ?_⟩, ?_⟩
  · intro hr s
    exact htorn' s (hsh.atRest (hrest hr) s)
  · intro s hs
    rw [hlen]
    exact hsh.atWork s (hwork s hs)
  · rw [← hsh.busy]
    exact iff_of_false hv' hv
  · intro n hn
    exact absurd (hsh.busy_of_worker hn) hv
  · intro n hn
    exact (hsh.owned n hn).mono (fun s _ => htorn' s) (Nat.le_of_eq hlen.symm) hopen
  · refine hf.frame htorn hlen ht hopen (fun s => ?_) (fun s => ?_) (fun _ _ hm => hm) fun hm => hm
    · exact or_congr_left (iff_of_false (hne' s) (hne s))
    · exact or_congr_left (iff_of_false (hne' s) (hne s))

/-- A supervisor without a session goes on without one. -/
theorem Sane.turnAtRest (h : Sane k ops due) (hs : k'.sessions = k.sessions) (ht : k'.stored = k.stored)
    (hd : k'.shutdown = k.shutdown) (hv : k.supervisor.isAtRest = true) (hv' : k'.supervisor.isAtRest = true) :
    Sane k' ops due := by
  have hne : ∀ {v : Supervisor}, v.isAtRest = true → v ≠ .busy ∧ ∀ s, v ≠ .engaged s := by
    intro v hv
    constructor
    · rintro rfl
      cases hv
    · rintro s rfl
      cases hv
  refine h.turn hs ht hd (hne hv).1 (hne hv').1 (hne hv).2 (hne hv').2 (fun _ => hv) fun s hs => ?_
  rw [Supervisor.session?_eq_none hv'] at hs
  cases hs

/-- A supervisor goes on with its live session. -/
theorem Sane.turnAtWork (h : Sane k ops due) (hs : k'.sessions = k.sessions) (ht : k'.stored = k.stored)
    (hd : k'.shutdown = k.shutdown) {s : SessionId} (hv : k.supervisor.session? = some s)
    (hv' : k'.supervisor.session? = some s) (hne : k.supervisor ≠ .engaged s) (hne' : k'.supervisor ≠ .engaged s) :
    Sane k' ops due := by
  have hbusy : ∀ {v : Supervisor}, v.session? = some s → v ≠ .busy := by
    rintro v hv rfl
    cases hv
  have hengaged : ∀ {v : Supervisor}, v.session? = some s → v ≠ .engaged s → ∀ s', v ≠ .engaged s' := by
    rintro v hv hne s' rfl
    cases hv
    exact hne rfl
  refine h.turn hs ht hd (hbusy hv) (hbusy hv') (hengaged hv hne) (hengaged hv' hne') (fun hr => ?_) fun s' hs' => ?_
  · rw [Supervisor.session?_eq_none hr] at hv'
    cases hv'
  · exact hv.trans (hv'.symm.trans hs')

section Engage

variable {session : Session}

/-- If all sessions are torn down, one that is added is the only one that is not. -/
private theorem Connection.alive_concat_iff (hall : ∀ s, k.isTornDown s = true) (hnew : session.tornDown = false)
    {supervisor : Supervisor} {s : SessionId} :
    ({ k with sessions := k.sessions ++ [session], supervisor } : Connection).isTornDown s = false ↔
      s = k.sessions.length := by
  rw [Connection.isTornDown_concat hnew, hall s]
  simp

private theorem OperationShape.engage {worker : Option Nat} (h : OperationShape worker k ops) {id : Ident}
    (hv : k.supervisor = .handshaking id) (hnew : session.tornDown = false) : OperationShape worker { k with
      sessions := k.sessions ++ [session], supervisor := .engaged k.sessions.length } ops := by
  have hlen : (k.sessions ++ [session]).length = k.sessions.length + 1 := by simp
  have hnone : ∀ n, worker ≠ some n := by
    intro n hn
    have := h.busy_of_worker hn
    rw [hv] at this
    cases this
  refine ⟨nofun, ?_, ?_, fun n hn => absurd hn (hnone n), fun n hn => ?_⟩
  · intro s hs
    cases hs
    exact hlen.symm
  · refine ⟨fun he => ?_, fun hw => ?_⟩
    · cases he
    · obtain ⟨n, hn⟩ := Option.isSome_iff_exists.mp hw
      exact absurd hn (hnone n)
  · refine (h.owned n hn).mono (fun s hl ht => ?_) (hlen ▸ Nat.le_succ _) fun hd => hd
    rw [Connection.isTornDown_concat hnew, ht]
    simp [Nat.ne_of_lt hl]

private theorem SessionFacts.engage (h : SessionFacts k ops due) (hall : ∀ s, k.isTornDown s = true)
    (hnew : session.tornDown = false) : SessionFacts { k with
      sessions := k.sessions ++ [session], supervisor := .engaged k.sessions.length } ops due := by
  have hlen : (k.sessions ++ [session]).length = k.sessions.length + 1 := by simp
  have hstored : ∀ s, k.stored = some s → s ≠ k.sessions.length := fun s hs => Nat.ne_of_lt (h.storedExists s hs)
  refine ⟨?_, ?_, ?_, ?_, ?_, ?_, ?_⟩
  · intro s hs
    rw [(Connection.alive_concat_iff hall hnew).mp hs]
    exact hlen.symm
  · intro s hs
    exact hlen ▸ Nat.lt_succ_of_lt (h.storedExists s hs)
  · rintro s (hu | hu) hs
    · cases hu
      exact hstored _ hs rfl
    · exact h.unstored s (.inr hu) hs
  · intro s hs
    rw [(Connection.alive_concat_iff hall hnew).mp hs]
    exact .inl (.inl rfl)
  · intro hdue
    refine (h.isDue hdue).imp_left ?_
    rintro ⟨s, hs, -⟩
    rw [hall s] at hs
    cases hs
  · intro _ s hs hst
    exact absurd ((Connection.alive_concat_iff hall hnew).mp hs) (hstored s hst)
  · rintro hd s (hu | hu)
    · cases hu
      exact (Connection.alive_concat_iff hall hnew).mpr rfl
    · have := h.young hd s (.inr hu)
      rw [hall s] at this
      cases this

/-- A handshake that succeeds opens a new session. -/
theorem Sane.engage (h : Sane k ops due) {id : Ident} (hv : k.supervisor = .handshaking id)
    (hnew : session.tornDown = false) : Sane { k with
      sessions := k.sessions ++ [session], supervisor := .engaged k.sessions.length } ops due := by
  obtain ⟨worker, hsh, hf⟩ := h
  exact ⟨worker, hsh.engage hv hnew, hf.engage (hsh.atRest (by rw [hv]; rfl)) hnew⟩

end Engage

private theorem Move.isAhead_begin_iff (hn : ops n = []) {x : Move} {moves : List Move} :
    x.IsAhead (Function.update ops n moves) ↔ x ∈ moves ∨ x.IsAhead ops := by
  constructor
  · rintro ⟨n', hx⟩
    by_cases hn' : n' = n
    · subst hn'
      rw [Function.update_self] at hx
      exact .inl hx
    · rw [Function.update_of_ne hn'] at hx
      exact .inr ⟨n', hx⟩
  · rintro (hx | ⟨n', hx⟩)
    · exact ⟨n, by rwa [Function.update_self]⟩
    · refine ⟨n', ?_⟩
      by_cases hn' : n' = n
      · rw [hn', hn] at hx
        cases hx
      · rwa [Function.update_of_ne hn']

private theorem OperationShape.begin {worker : Option Nat} (h : OperationShape worker k ops) (hv : k.supervisor ≠ .busy)
    {moves : List Move} (hw : Working k moves) :
    OperationShape (some n) { k with supervisor := .busy } (Function.update ops n moves) where
  atRest := nofun
  atWork := nofun
  busy := ⟨fun _ => rfl, fun _ => rfl⟩
  works n' hn' := by
    cases hn'
    rw [Function.update_self]
    exact hw.mono (fun _ ht => ht) rfl
  owned n' hn' := by
    rw [Function.update_of_ne fun he => hn' (congrArg some he.symm)]
    exact (h.owned n' fun hw => hv (h.busy_of_worker hw)).mono (fun _ _ ht => ht) (Nat.le_refl _) fun hd => hd

/-- A supervisor begins to make its new session live. -/
theorem Sane.beginGoLive (h : Sane k ops due) {s : SessionId} (hv : k.supervisor = .engaged s) (hn : ops n = []) :
    Sane { k with supervisor := .busy }
      (Function.update ops n (Move.goingLive s ++ [.assign (.checking s)])) due := by
  obtain ⟨worker, hsh, hf⟩ := h
  have latest : s + 1 = k.sessions.length := hsh.atWork s (by rw [hv]; rfl)
  refine ⟨some n, hsh.begin (by rw [hv]; simp) (.storing latest), ?_⟩
  refine hf.frame (fun _ => rfl) rfl rfl (fun hd => hd) (fun s' => ?_) (fun s' => ?_) (fun _ _ hm => ?_) fun hm => ?_
  · rw [Unstored, Unstored, Move.isAhead_begin_iff hn, hv]
    simp [Move.goingLive, eq_comm]
  · rw [Unjoined, Unjoined, Move.isAhead_begin_iff hn, hv]
    simp [Move.goingLive, eq_comm]
  · exact (Move.isAhead_begin_iff hn).mpr (.inr hm)
  · exact (Move.isAhead_begin_iff hn).mpr (.inr hm)

/-- A supervisor begins to tear its session down. -/
theorem Sane.beginTeardown (h : Sane k ops due) {s : SessionId} {last : Bool} (hv : k.supervisor = .leaving s last)
    (hn : ops n = []) {moves : List Move} {supervisor : Supervisor} (only : ∀ m ∈ moves, m.isOwners = true)
    (atRest : supervisor.isAtRest = true) : Sane { k with supervisor := .busy }
      (Function.update ops n (.markTornDown s :: (moves ++ [.assign supervisor]))) due := by
  obtain ⟨worker, hsh, hf⟩ := h
  have latest : s + 1 = k.sessions.length := hsh.atWork s (by rw [hv]; rfl)
  have foreign : ∀ {x : Move}, x.isOwners = false → (∀ supervisor, x ≠ .assign supervisor) →
      x ∉ Move.markTornDown s :: (moves ++ [.assign supervisor]) := by
    intro x hx hne hm
    rcases List.mem_cons.mp hm with rfl | hm
    · cases hx
    · rcases List.mem_append.mp hm with hm | hm
      · rw [only x hm] at hx
        cases hx
      · exact hne supervisor (List.mem_singleton.mp hm)
  refine ⟨some n, hsh.begin (by rw [hv]; simp) (.marking latest only atRest), ?_⟩
  refine hf.frame (fun _ => rfl) rfl rfl (fun hd => hd) (fun s' => ?_) (fun s' => ?_) (fun _ _ hm => ?_) fun hm => ?_
  · rw [Unstored, Unstored, Move.isAhead_begin_iff hn, hv]
    simp [foreign (x := .store s') rfl (by simp)]
  · rw [Unjoined, Unjoined, Move.isAhead_begin_iff hn, hv]
    simp [foreign (x := .joinLive s') rfl (by simp)]
  · exact (Move.isAhead_begin_iff hn).mpr (.inr hm)
  · exact (Move.isAhead_begin_iff hn).mpr (.inr hm)

/-- An owner begins to close the connection. -/
theorem Sane.beginClosing (h : Sane k ops due) (hn : ops n = []) :
    Sane k (Function.update ops n Move.closing) due := by
  obtain ⟨worker, hsh, hf⟩ := h
  have ahead : ∀ {x : Move}, x ∉ Move.closing → (x.IsAhead (Function.update ops n Move.closing) ↔ x.IsAhead ops) :=
    fun hx => (Move.isAhead_begin_iff hn).trans (or_iff_right hx)
  have hidle : ∀ moves, Working k moves → moves ≠ [] := by
    intro moves hw
    cases hw <;> simp
  refine ⟨worker, hsh.update rfl (fun _ ht => ht) rfl (fun hd => hd) (fun hw => ?_) fun _ => ?_, ?_⟩
  · exact absurd hn (hidle _ (hsh.works n hw))
  · refine ⟨?_, ?_, fun _ => .inr rfl⟩
    · simp [Move.closing, Move.isOwners]
    · simp [Move.closing]
  · refine hf.frame (fun _ => rfl) rfl rfl (fun hd => hd) (fun s => ?_) (fun s => ?_) (fun _ _ hm => ?_) fun hm => ?_
    · exact or_congr_right (ahead (by simp [Move.closing]))
    · exact or_congr_right (ahead (by simp [Move.closing]))
    · exact (ahead (by simp [Move.closing])).mpr hm
    · exact (ahead (by simp [Move.closing])).mpr hm

/-- The owner gives up a session. -/
theorem Sane.disconnect (h : Sane k ops due) (s : SessionId) :
    Sane (k.changeSession s fun session => { session with cancelled := true }) ops due := by
  obtain ⟨worker, hsh, hf⟩ := h
  let k₁ := k.changeSession s fun session => { session with cancelled := true }
  have htorn : ∀ s', k₁.isTornDown s' = k.isTornDown s' := fun s' =>
    Connection.isTornDown_changeSession s s' (fun session => { session with cancelled := true }) fun _ => rfl
  have hlen : k₁.sessions.length = k.sessions.length := by simp [k₁, Connection.changeSession]
  refine ⟨worker, ⟨?_, ?_, hsh.busy, ?_, ?_⟩, ?_⟩
  · intro hr s'
    exact (htorn s').trans (hsh.atRest hr s')
  · intro s' hs'
    exact (hsh.atWork s' hs').trans hlen.symm
  · intro n hn
    exact (hsh.works n hn).mono (fun s' => (htorn s').trans) hlen
  · intro n hn
    exact (hsh.owned n hn).mono (fun s' _ => (htorn s').trans) (Nat.le_of_eq hlen.symm) fun hd => hd
  · exact hf.frame htorn hlen rfl (fun hd => hd) (fun _ => Iff.rfl) (fun _ => Iff.rfl) (fun _ _ hm => hm) fun hm => hm

/-! ### When nothing is under way -/

/-- When a connection is neither going live nor being torn down or closed, it is due to be in the live set exactly when
a live session is in use. -/
theorem Sane.due_iff (h : Sane k ops due) (hc : ∀ n, ∀ m ∈ ops n, m.isAssign = true) :
    due = true ↔ k.liveSession?.isSome = true := by
  obtain ⟨worker, hsh, hf⟩ := h
  have quiet : ∀ {x : Move}, x.isAssign = false → ¬ x.IsAhead ops := by
    rintro x hx ⟨n, hm⟩
    rw [hc n x hm] at hx
    cases hx
  rw [Connection.isSome_liveSession?_iff]
  constructor
  · intro hdue
    rcases hf.isDue hdue with ⟨s, halive, hu⟩ | hm
    · rcases hf.inUse s halive with hu' | hs | hm
      · exact absurd hu' hu
      · exact ⟨s, hs, halive⟩
      · exact absurd hm (quiet rfl)
    · exact absurd hm (quiet rfl)
  · rintro ⟨s, hs, halive⟩
    -- not due, a session in use would be one that has still to be stored, or to join with
    refine Decidable.byContradiction fun hdue => ?_
    rcases hf.notDue (by simpa using hdue) s halive hs with hv | hm
    · exact hf.unstored s (.inl hv) hs
    · exact quiet rfl hm

/-- The session with which a connection joins the live set exists. -/
theorem Sane.lt_of_joinLive (h : Sane k ops due) {s : SessionId} (hn : ops n = .joinLive s :: rest) :
    s < k.sessions.length := by
  obtain ⟨worker, hsh, -⟩ := h
  obtain ⟨-, -, hwork⟩ := hsh.at_work hn rfl
  exact hwork.of_joinLive.1 ▸ Nat.lt_succ_self s

/-- As long as a connection is not closed, it joins the live set with sessions that are not torn down. -/
theorem Sane.not_late (h : Sane k ops due) (hd : k.shutdown = false) {s : SessionId}
    (hn : ops n = .joinLive s :: rest) : k.isTornDown s = false := by
  obtain ⟨worker, hsh, hf⟩ := h
  exact hf.young hd s (.inr ⟨n, by rw [hn]; exact List.mem_cons_self⟩)

/-- As long as a connection is not closed, no live session is in use when it leaves the live set. -/
theorem Sane.not_hasty (h : Sane k ops due) (hd : k.shutdown = false) (hn : ops n = .leaveLive :: rest) :
    k.liveSession?.isSome = false := by
  obtain ⟨worker, hsh, hf⟩ := h
  -- the supervisor leaves after it has marked its session, when all sessions are torn down
  have hw := hsh.worker_of_open hd hn (by simp)
  have hall := (hn ▸ hsh.works n hw : Working k (.leaveLive :: rest)).all_torn rfl (by simp) (by simp)
  rw [Bool.eq_false_iff, ne_eq, Connection.isSome_liveSession?_iff]
  rintro ⟨s, -, halive⟩
  rw [hall s] at halive
  cases halive

end Sane

end LockService
