import LockService.Client.Request
import LockService.Proofs.Interplay

/-!
# When the live set agrees with the live sessions

An owner who closes a connection may come between the moves with which the supervisor makes a session live, so that
the session is torn down before the connection joins the live set with it; then nothing takes the connection off the
set again, and it stays there without a live session. `live_set_agrees_iff` says exactly when this happens: whenever a
connection is neither going live nor being torn down or closed, it is in the live set if and only if a live session
is in use, unless its last move on the live set was out of place. Without closing no move is.
-/

namespace LockService

namespace Interplay

variable {p p' : Interplay} {i j n : Nat}

/-! ### One event -/

/-- What holds at every moment of a watch over a connection. -/
structure Watch.Kept (i : Nat) (w : Watch) : Prop where
  replicated : w.play.client.replicated = true
  absent : w.play.client.connections[i]? = none →
    w.play.client.live.has i = false ∧ w.amiss = false ∧ ∀ n, w.play.movesOn i n = []
  present : ∀ k, w.play.client.connections[i]? = some k →
    Sane k (w.play.movesOn i) (w.play.client.live.has i ^^ w.amiss) ∧ (w.amiss = true → k.shutdown = true)

namespace Watch

variable {w : Watch} {c : Client} {k k' : Connection}

/-- Events that leave the live set alone. -/
theorem Kept.becomes (h : w.Kept i) (hk : w.play.client.connections[j]? = some k) (hb : w.play.client.Becomes c j k')
    {underway : List (Nat × List Move)} (hd : k.shutdown = true → k'.shutdown = true)
    (hother : j ≠ i → ({ client := c, underway } : Interplay).movesOn i = w.play.movesOn i)
    (hself : j = i → ∀ due, Sane k (w.play.movesOn i) due →
      Sane k' (({ client := c, underway } : Interplay).movesOn i) due) :
    Kept i ⟨{ client := c, underway }, w.amiss⟩ := by
  refine ⟨hb.replicated.trans h.replicated, ?_, ?_⟩
  · intro hnone
    by_cases hj : j = i
    · subst hj
      have hnone : c.connections[j]? = none := hnone
      rw [hb.here] at hnone
      cases hnone
    · have hnone : c.connections[i]? = none := hnone
      rw [hb.others i (Ne.symm hj)] at hnone
      obtain ⟨hhas, hamiss, hmoves⟩ := h.absent hnone
      rw [hother hj]
      refine ⟨?_, hamiss, hmoves⟩
      show c.live.has i = false
      rw [hb.live, hhas]
  · intro k₁ hk₁
    have hk₁ : c.connections[i]? = some k₁ := hk₁
    show Sane k₁ _ (c.live.has i ^^ w.amiss) ∧ _
    rw [hb.live]
    by_cases hj : j = i
    · subst hj
      rw [hb.here] at hk₁
      cases hk₁
      obtain ⟨hsane, hshut⟩ := h.present k hk
      exact ⟨hself rfl _ hsane, fun ha => hd (hshut ha)⟩
    · rw [hb.others i (Ne.symm hj)] at hk₁
      rw [hother hj]
      exact h.present k₁ hk₁

/-- An operation begins on a connection. -/
private theorem Kept.begin (h : w.Kept i) (hk : w.play.client.connections[j]? = some k)
    (hb : w.play.client.Becomes c j k') (hd : k'.shutdown = k.shutdown) {moves : List Move}
    (hbegin : ∀ ops n due, Sane k ops due → ops n = [] → Sane k' (Function.update ops n moves) due) :
    Kept i ⟨{ w.play with client := c }.begin j moves, w.amiss⟩ := by
  have hmoves := movesOn_begin { w.play with client := c } i j moves
  have hnil := movesOn_length w.play
  refine h.becomes hk hb (fun hs => hd.trans hs) (fun hj => ?_) fun hj due hsane => ?_
  · exact hmoves.trans (if_neg hj)
  · rw [if_pos hj] at hmoves
    exact hmoves ▸ hbegin _ _ due hsane (hnil i)

private theorem Kept.turn (h : w.Kept i) {t : Client.Turn} {p : Interplay} (hp : w.play.step (.turn j t) = some p) :
    Kept i ⟨p, w.amiss⟩ := by
  cases hk : w.play.client.connections[j]? with
  | none => simp [Interplay.step, hk] at hp
  | some k =>
    have hbusy := Client.becomes_change hk fun k => { k with supervisor := .busy }
    simp only [Interplay.step, hk, Option.bind_eq_bind, Option.bind_some] at hp
    split at hp
    case h_1 s hv =>
      cases hp
      exact h.begin hk hbusy rfl fun ops n due hsane hn => hsane.beginGoLive hv hn
    case h_2 s hv =>
      cases hp
      have only : ∀ m ∈ ([] : List Move), m.isOwners = true := nofun
      exact h.begin hk hbusy rfl fun ops n due hsane hn => hsane.beginTeardown hv hn only rfl
    case h_3 s hv =>
      cases hp
      have only : ∀ m ∈ [Move.setPhase .closed], m.isOwners = true := by simp [Move.isOwners]
      exact h.begin hk hbusy rfl fun ops n due hsane hn => hsane.beginTeardown hv hn only rfl
    case h_4 hgo hlast hleave =>
      obtain ⟨c, ht, rfl⟩ := Option.map_eq_some_iff.mp hp
      obtain ⟨k', hb, hturns⟩ := Client.becomes_turn hk ht (fun he s hv => hgo s he hv) fun he s last hv => by
        cases last with
        | false => exact hlast s he hv
        | true => exact hleave s he hv
      exact h.becomes hk hb (fun hs => hturns.shutdown.trans hs) (fun _ => rfl) fun _ due hsane => hsane.turns hturns

/-- An owner's close, of whichever connection, keeps the books of each. -/
private theorem Kept.close (h : w.Kept i) {p : Interplay} (hp : w.play.step (.close j) = some p) :
    Kept i ⟨p, w.amiss⟩ := by
  simp only [Interplay.step] at hp
  split at hp
  · rename_i hj
    cases hp
    have hk := List.getElem?_eq_getElem hj
    exact h.begin hk (Client.becomes_refl hk) rfl fun ops n due hsane hn => hsane.beginClosing hn
  · cases hp

private theorem Kept.disconnect (h : w.Kept i) (j : Nat) :
    Kept i ⟨{ w.play with client := w.play.client.disconnect j }, w.amiss⟩ := by
  cases hk : w.play.client.connections[j]? with
  | none =>
    have hsame : w.play.client.disconnect j = w.play.client := by simp [Client.disconnect, hk]
    rw [hsame]
    exact h
  | some k =>
    obtain ⟨k', hb, hd, hsane⟩ := Client.becomes_disconnect hk
    exact h.becomes hk hb (fun hs => hd.trans hs) (fun _ => rfl) fun _ due => hsane _ due

/-- In the live set or out of place, but not both, is what a connection is due to be there. -/
private theorem dueAfter_eq {m : Move} {rest : List Move} (hk : w.play.client.connections[i]? = some k)
    (hops : w.play.movesOn i n = m :: rest) :
    (m.listedAfter (w.play.client.live.has i) ^^ w.judge i (.move n)) =
      m.dueAfter k (w.play.isLeaving i) (w.play.client.live.has i ^^ w.amiss) := by
  rw [judge, hops]
  cases m with
  | joinLive s => exact (Bool.true_xor _).trans (congrArg (!·) (joinsLate_eq hk s))
  | leaveLive => exact (Bool.false_xor _).trans (leavesHastily_eq hk)
  | _ => rfl

/-- Only a connection that was closed makes a move on the live set that is out of place. -/
private theorem Kept.shutdown_of_judge (h : w.Kept i) {m : Move} {rest : List Move}
    (hk : w.play.client.connections[i]? = some k) (hops : w.play.movesOn i n = m :: rest)
    (ha : w.judge i (.move n) = true) : k.shutdown = true := by
  obtain ⟨hsane, hshut⟩ := h.present k hk
  rw [judge, hops] at ha
  refine Decidable.byContradiction fun hd => ?_
  rw [Bool.not_eq_true] at hd
  cases m with
  | joinLive s =>
    have ha : w.play.joinsLate i s = true := ha
    rw [joinsLate_eq hk, hsane.not_late hd hops] at ha
    cases ha
  | leaveLive =>
    have ha : w.play.leavesHastily i = true := ha
    rw [leavesHastily_eq hk, hsane.not_hasty hd hops] at ha
    cases ha
  | _ => exact absurd (hshut ha) (by simp [hd])

/-- A move of an operation on the connection that is watched keeps the watch. -/
private theorem Kept.ownMove (h : w.Kept i) {m : Move} {rest : List Move}
    (hn : w.play.underway[n]? = some (i, m :: rest)) :
    Kept i ⟨⟨(m.make w.play.client i).2, w.play.underway.set n (i, (m.make w.play.client i).1 ++ rest)⟩,
      w.judge i (.move n)⟩ := by
  have hmoves := movesOn_set hn (m.make w.play.client i).2 ((m.make w.play.client i).1 ++ rest) i
  obtain ⟨hr, -, -⟩ := Move.frame_make w.play.client i m
  have hops := movesOn_eq hn
  rw [if_pos rfl] at hmoves
  cases hk : w.play.client.connections[i]? with
  | none =>
    rw [(h.absent hk).2.2 n] at hops
    cases hops
  | some k =>
    obtain ⟨hsane, -⟩ := h.present k hk
    obtain ⟨hmore, hhere⟩ := Move.getElem?_connections_make hk m
    refine ⟨hr.trans h.replicated, fun hnone => ?_, fun k' hk' => ?_⟩
    · cases hhere.symm.trans hnone
    · cases hhere.symm.trans hk'
      have hlt : ∀ s, m = .joinLive s → s < k.sessions.length := by
        rintro s rfl
        exact hsane.lt_of_joinLive hops
      have hhas := Move.has_make_self h.replicated hk hlt
      have hlate := h.shutdown_of_judge hk hops
      refine ⟨?_, fun ha => Move.shutdown_onConnection (hlate ha) m⟩
      show Sane _ _ ((m.make w.play.client i).2.live.has i ^^ w.judge i (.move n))
      rw [hhas, dueAfter_eq hk hops, hmoves, hmore]
      exact hsane.move hops (isLeaving_iff w.play i)

/-- A move of an operation on another connection is nothing to the watch. -/
private theorem Kept.othersMove (h : w.Kept i) {j : Nat} (hj : j ≠ i) {m : Move} {rest : List Move}
    (hn : w.play.underway[n]? = some (j, m :: rest)) :
    Kept i ⟨⟨(m.make w.play.client j).2, w.play.underway.set n (j, (m.make w.play.client j).1 ++ rest)⟩,
      w.judge i (.move n)⟩ := by
  have hmoves := movesOn_set hn (m.make w.play.client j).2 ((m.make w.play.client j).1 ++ rest) i
  obtain ⟨hr, hothers, -⟩ := Move.frame_make w.play.client j m
  rw [if_neg hj] at hmoves
  have hjudge : w.judge i (.move n) = w.amiss := by
    have hnil : w.play.movesOn i n = [] := by
      rw [movesOn, hn]
      exact if_neg hj
    rw [judge, hnil]
  have hhas := Move.has_make_of_ne (c := w.play.client) (m := m) (Ne.symm hj)
  have hconn := hothers i (Ne.symm hj)
  rw [hjudge]
  refine ⟨hr.trans h.replicated, fun hnone => ?_, fun k hk => ?_⟩
  · rw [hmoves]
    exact ⟨hhas.trans (h.absent (hconn.symm.trans hnone)).1, (h.absent (hconn.symm.trans hnone)).2⟩
  · rw [hmoves]
    show Sane k _ ((m.make w.play.client j).2.live.has i ^^ w.amiss) ∧ _
    rw [hhas]
    exact h.present k (hconn.symm.trans hk)

/-- Every move of an operation under way keeps the watch. -/
theorem Kept.move (h : w.Kept i) {p : Interplay} (hp : w.play.step (.move n) = some p) :
    Kept i ⟨p, w.judge i (.move n)⟩ := by
  simp only [Interplay.step] at hp
  split at hp
  case h_2 => cases hp
  case h_1 j m rest hn =>
    cases hp
    by_cases hj : j = i
    · subst hj
      exact h.ownMove hn
    · exact h.othersMove hj hn

private theorem Kept.step (h : w.Kept i) (e : Event) : (w.step i e).Kept i := by
  unfold Watch.step
  split
  · rename_i p hp
    cases e with
    | turn j t => exact h.turn hp
    | close j => exact h.close hp
    | disconnect j =>
      cases hp
      exact h.disconnect j
    | move n => exact h.move hp
  · exact h

private theorem Kept.run (h : w.Kept i) (events : List Event) : (w.run i events).Kept i := by
  induction events generalizing w with
  | nil => exact h
  | cons e events ih => exact ih (h.step e)

/-- A client starts with every connection at rest and none in the live set. -/
theorem kept_start {config : Config} {replicated : Bool} {ids : IdSource}
    (hc : Client.start config replicated ids = .ok c) (hr : c.replicated = true) (i : Nat) :
    Kept i ⟨⟨c, []⟩, false⟩ := by
  obtain ⟨hlive, hfresh⟩ := Client.start_fresh hc
  have hhas : c.live.has i = false := by
    rw [hlive]
    rfl
  refine ⟨hr, fun _ => ⟨hhas, rfl, fun _ => rfl⟩, fun k hk => ⟨?_, nofun⟩⟩
  obtain ⟨address, rfl⟩ := hfresh k (List.mem_of_getElem? hk)
  show Sane { address } (fun _ => []) (c.live.has i ^^ false)
  rw [hhas]
  exact sane_fresh address

/-- Between the operations on a connection the watch tells whether the live set agrees with the sessions. -/
theorem Kept.agrees_iff (h : w.Kept i) (hc : w.play.isCalm i = true) :
    w.play.client.live.has i = (w.play.client.liveSession? i).isSome ↔ w.amiss = false := by
  cases hk : w.play.client.connections[i]? with
  | none =>
    obtain ⟨hhas, hamiss, -⟩ := h.absent hk
    have hlive : w.play.client.liveSession? i = none := by
      rw [Client.liveSession?, hk]
      rfl
    rw [hhas, hlive, hamiss]
    exact iff_of_true rfl rfl
  | some k =>
    have hlive : w.play.client.liveSession? i = k.liveSession? := by
      rw [Client.liveSession?, hk]
      rfl
    have hdue := (h.present k hk).1.due_iff fun n m hm => isAssign_of_isCalm hc hm
    rw [hlive, ← Bool.eq_iff_iff.mpr hdue]
    cases w.play.client.live.has i <;> cases w.amiss <;> simp

end Watch

/-! ### Any number of events -/

end Interplay

namespace Client

variable {c : Client}

private theorem failure_await {b : Switchboard} {t : TableId} {id : Ident} {bound : Span} {failure : Failure}
    (h : (b.await t id bound).1 = .error failure) : failure = .connectionClosed := by
  unfold Switchboard.await at h
  dsimp only at h
  split at h <;> cases h
  rfl

private theorem send_unconnected_iff (request : Request) :
    (c.send request).1 = .error .unconnected ↔ c.route? = none := by
  unfold send
  split
  · rename_i i s session hroute
    rw [hroute]
    refine iff_of_false (fun he => ?_) nofun
    unfold sendOn at he
    split at he
    · cases he
    · rename_i failure board hawait
      cases he
      cases failure_await (congrArg Prod.fst hawait)
  · rename_i hroute
    exact iff_of_true rfl hroute

/-- When the live set agrees with the live sessions, requests find one if there is one. -/
theorem route?_eq_none_iff (hr : c.replicated = true) (h : ∀ i, c.live.has i = (c.liveSession? i).isSome) :
    c.route? = none ↔ ∀ i, c.liveSession? i = none := by
  constructor
  · intro hroute i
    cases hf : c.live.first? with
    | none =>
      refine Option.not_isSome_iff_eq_none.mp ?_
      rw [← h i, LiveSet.has_eq_false_of_first hf i]
      nofun
    | some j =>
      have hj := (h j).symm.trans (LiveSet.has_first hf)
      obtain ⟨live, hlive⟩ := Option.isSome_iff_exists.mp hj
      simp [route?, primary?, hr, hf, hlive] at hroute
  · intro hnone
    simp [route?, hnone]

end Client

namespace Interplay

/-- Whenever a connection of a replica set is neither going live nor being torn down or closed, it is in the live set
exactly when a live session is in use, unless its last move on the live set was out of place. Only a connection that
was closed ever makes such a move, and as long as none did, a request finds a live session if there is one. -/
theorem live_set_agrees_iff {config : Config} {replicated : Bool} {ids : IdSource} {c : Client}
    (hc : Client.start config replicated ids = .ok c) (hr : c.replicated = true) (events : List Event) :
    let p : Interplay := run ⟨c, []⟩ events
    (∀ i, p.isCalm i = true →
      (p.client.live.has i = (p.client.liveSession? i).isSome ↔ isAmiss c events i = false)) ∧
    (∀ i, isAmiss c events i = true → ∃ k, p.client.connections[i]? = some k ∧ k.shutdown = true) ∧
    ((∀ i, p.isCalm i = true) → (∀ i, isAmiss c events i = false) → ∀ request,
      (p.client.send request).1 = .error .unconnected ↔ ∀ i, p.client.liveSession? i = none) := by
  intro p
  -- the watches over different connections see the same interplay
  have kept : ∀ i, ∃ w : Watch, w.play = p ∧ w.amiss = isAmiss c events i ∧ w.Kept i := by
    intro i
    refine ⟨Watch.run i { play := ⟨c, []⟩ } events, Watch.play_run i _ events, rfl, ?_⟩
    exact (Watch.kept_start hc hr i).run events
  have agrees : ∀ i, p.isCalm i = true →
      (p.client.live.has i = (p.client.liveSession? i).isSome ↔ isAmiss c events i = false) := by
    intro i hcalm
    obtain ⟨w, hplay, hamiss, hkept⟩ := kept i
    rw [← hplay] at hcalm ⊢
    rw [← hamiss]
    exact hkept.agrees_iff hcalm
  refine ⟨agrees, fun i ha => ?_, fun hcalm hnone request => ?_⟩
  · obtain ⟨w, hplay, hamiss, hkept⟩ := kept i
    rw [← hamiss] at ha
    rw [← hplay]
    cases hk : w.play.client.connections[i]? with
    | none =>
      rw [(hkept.absent hk).2.1] at ha
      cases ha
    | some k => exact ⟨k, rfl, (hkept.present k hk).2 ha⟩
  · have hreplicated : p.client.replicated = true := by
      obtain ⟨w, hplay, -, hkept⟩ := kept 0
      rw [← hplay]
      exact hkept.replicated
    rw [Client.send_unconnected_iff]
    exact Client.route?_eq_none_iff hreplicated fun i => (agrees i (hcalm i)).mpr (hnone i)

/-! ### Runs of a client of two replicas -/

def pairConfig : Config := Config.replicaSet 2 ["a", "b"]

def pairIds : IdSource := IdSource.seeded 7 fun _ => ⟨0, 0⟩

/-- A client of two replicas that has just started. -/
def pairClient : Client where
  config := pairConfig
  clientId := pairIds.upcoming
  replicated := true
  connections := [{ address := ⟨['a'], defaultPort⟩ }, { address := ⟨['b'], defaultPort⟩ }]
  ids := pairIds.advance

private theorem start_pair : Client.start pairConfig true pairIds = .ok pairClient := by
  have ha : Address.parse? "a" = some ⟨['a'], defaultPort⟩ := by decide +kernel
  have hb : Address.parse? "b" = some ⟨['b'], defaultPort⟩ := by decide +kernel
  have hf : pairConfig.fault? = none := by decide
  have hosts : pairConfig.hosts = ["a", "b"] := rfl
  simp only [Client.start, hf, hosts, List.filterMap_cons, ha, hb, List.filterMap_nil]
  rfl

/-- A connection opens a session, and its supervisor begins to make it live. -/
def opening (i : Nat) (id : Ident) : List Event :=
  [.turn i .attempt, .turn i .introduce, .turn i (.hear ⟨Reply.encode (.init ⟨id, ResultCode.success, 1⟩), false⟩),
    .turn i .goLive]

/-- Both replicas go live, and the first loses its session. -/
def oneLost : List Event :=
  opening 0 pairIds.advance.upcoming ++ List.replicate 4 (.move 0) ++ [.turn 0 .check] ++
    opening 1 pairIds.advance.advance.upcoming ++ List.replicate 4 (.move 1) ++
    [.turn 0 .stopReading, .turn 0 .teardown] ++ List.replicate 7 (.move 2)

/-- The live set lists each replica exactly if it has a live session. -/
theorem oneLost_agrees : Client.start pairConfig true pairIds = .ok pairClient ∧ pairClient.replicated = true ∧
    (run ⟨pairClient, []⟩ oneLost).client.live.has 0 =
      ((run ⟨pairClient, []⟩ oneLost).client.liveSession? 0).isSome ∧
    (run ⟨pairClient, []⟩ oneLost).client.live.has 1 =
      ((run ⟨pairClient, []⟩ oneLost).client.liveSession? 1).isSome := by
  have h := (live_set_agrees_iff start_pair rfl oneLost).1
  refine ⟨start_pair, rfl, (h 0 ?_).mpr ?_, (h 1 ?_).mpr ?_⟩ <;> decide +kernel

/-- The owner closes the first connection after its supervisor has stored the session and before it joins the live
set, and the connection stays in the live set for good: the second replica is live, but every request fails. -/
def closedInBetween : List Event :=
  opening 0 pairIds.advance.upcoming ++ [.move 0, .close 0] ++ List.replicate 9 (.move 1) ++
    List.replicate 3 (.move 0) ++ [.turn 0 .check, .turn 0 .teardown] ++ List.replicate 3 (.move 2) ++
    opening 1 pairIds.advance.advance.upcoming ++ List.replicate 4 (.move 3)

/-- The closed replica stays listed without a session, and requests fail although the other one is live. -/
theorem closedInBetween_disagrees : Client.start pairConfig true pairIds = .ok pairClient ∧
    (run ⟨pairClient, []⟩ closedInBetween).isQuiet = true ∧
    (run ⟨pairClient, []⟩ closedInBetween).client.live.has 0 = true ∧
    (run ⟨pairClient, []⟩ closedInBetween).client.liveSession? 0 = none ∧
    ((run ⟨pairClient, []⟩ closedInBetween).client.liveSession? 1).isSome = true ∧
    ∀ request, ((run ⟨pairClient, []⟩ closedInBetween).client.send request).1 = .error .unconnected := by
  have hnone : ((run ⟨pairClient, []⟩ closedInBetween).client.liveSession? 0).isSome = false := by decide +kernel
  have hroute : (run ⟨pairClient, []⟩ closedInBetween).client.route?.isSome = false := by decide +kernel
  refine ⟨start_pair, by decide +kernel, by decide +kernel, ?_, by decide +kernel, fun request => ?_⟩
  · exact Option.not_isSome_iff_eq_none.mp (by rw [hnone]; nofun)
  · rw [Client.send_unconnected_iff]
    exact Option.not_isSome_iff_eq_none.mp (by rw [hroute]; nofun)

end Interplay

end LockService
