import LockService.Proofs.Interplay
import LockService.Proofs.SessionTables
import LockService.Proofs.Settlement

/-!
# Requests in an interplay have one outcome

What holds in every exchange whose requests have identifiers of their own (`Exchange.Inv`): a request that has been
entered is either pending in the table of its session, without an outcome, or it has exactly one outcome. An event
enters a request, issues one, or settles some of those that are pending; and an outcome is there to stay
(`Exchange.Keeps`).
-/

namespace LockService

namespace Interplay

variable {p p' : Interplay}

/-- An event of an interplay drains the table of a session, or it leaves everybody pending alone. -/
theorem step_cases {e : Event} (h : p.step e = some p') :
    (∃ n i s rest, e = .move n ∧ p.underway[n]? = some (i, .drain s :: rest) ∧ p'.client = p.client.drain i s) ∨
    (p.client.Grows p'.client ∧ (p'.client.board = p.client.board ∨ p'.client.board = p.client.board.newTable.2)) := by
  cases e with
  | turn i t =>
    right
    cases hk : p.client.connections[i]? with
    | none => simp [Interplay.step, hk] at h
    | some k =>
      have hbusy : p.client.Grows (p.client.assign i .busy) := (Client.follows_assign _ i _).grows
      simp only [Interplay.step, hk, Option.bind_eq_bind, Option.bind_some] at h
      split at h
      case h_4 _ hlast hleave =>
        obtain ⟨c, ht, rfl⟩ := Option.map_eq_some_iff.mp h
        refine Client.grows_turn hk ht fun he s last hv => ?_
        cases last with
        | false => exact hlast s he hv
        | true => exact hleave s he hv
      all_goals
        cases h
        exact ⟨hbusy, .inl rfl⟩
  | close i =>
    right
    simp only [Interplay.step] at h
    split at h
    · cases h
      exact ⟨(Client.Follows.refl _).grows, .inl rfl⟩
    · cases h
  | disconnect i =>
    right
    cases h
    refine ⟨Client.Follows.grows ?_, .inl ?_⟩
    · simp only [Client.disconnect]
      split
      · exact Client.follows_changeSession _ i _ (fun _ => rfl) fun _ ht => ht
      · exact .refl _
    · simp only [Client.disconnect]
      split <;> rfl
  | move n =>
    simp only [Interplay.step] at h
    split at h
    case h_2 => cases h
    case h_1 i m rest hn =>
      cases h
      cases m with
      | drain s => exact .inl ⟨n, i, s, rest, rfl, hn, rfl⟩
      | _ => exact .inr ⟨(Move.follows_make _ i _).grows, .inl (Move.board_make _ i (by simp))⟩

end Interplay

namespace Client

variable {c : Client} {session : Session} {request : Request}

/-- What entering a request into the table of a session comes to. -/
inductive Admission (c : Client) (table : TableId) (id : Ident) : Progress → Client → Prop where
  | taken {progress : Progress} {c' : Client} {p : Pending} (pending : progress.pending? = some p)
      (awaited : ∀ a, progress = .awaited a → a.table = table ∧ a.requestId = id)
      (adds : Switchboard.Adds p id c.board c'.board) (held : c'.board.holder? table id = some p) :
      Admission c table id progress c'
  | refused {c' : Client} (closed : (c.board.table table).closed = true)
      (settled : Switchboard.Settled c.board c'.board) (lasts : c.board.Lasts [] c'.board) :
      Admission c table id (.failed .connectionClosed) c'
  | refusedCallback {e : EntryId} {c' : Client} (closed : (c.board.table table).closed = true)
      (adds : Switchboard.Adds (.entry e) id c.board c'.board) (free : ∀ t r, c'.board.holder? t r ≠ some (.entry e))
      (outcomes : c'.board.outcomes (.entry e) = [.error .connectionClosed]) : Admission c table id (.posted e) c'

/-- A request that enters under an identifier of its own is pending in its session's table, or has been told at once
that the connection is closed, and every session keeps its table. -/
theorem admission_enter (h : c.board.Clear) (ht : session.table < c.board.tables.length)
    (hid : request.requestId ∉ c.board.requestIds) (hn : c.board.holder? session.table request.requestId = none)
    (now i : Nat) (s : SessionId) (manner : Manner) :
    let entered := c.enter now i s session request manner
    Admission c session.table request.requestId entered.1 entered.2 ∧ c.Follows entered.2 ∧
      c.board.Lasts [request.requestId] entered.2.board := by
  have hboard : ∀ board, c.Follows { c with board } := fun _ => .of_connections_eq rfl
  have hwrite : ∀ board, c.Follows (({ c with board } : Client).orderWrite i s request) := fun board =>
    (hboard board).trans (follows_orderWrite _ i s request)
  cases manner with
  | awaited =>
    have hlasts := Switchboard.lasts_await c.board session.table request.requestId (c.bound request)
    by_cases hc : (c.board.table session.table).closed = true
    · obtain ⟨b', hawait, hsettled⟩ := h.await_of_closed hc ht hid (c.bound request)
      rw [hawait] at hlasts
      simp only [enter, sendOn, hawait]
      exact ⟨.refused hc hsettled hlasts, hboard b', hlasts.mono (List.nil_subset _)⟩
    · obtain ⟨b', hawait, hadds, hheld⟩ := h.adds_await ht (by simpa using hc) hid hn (c.bound request)
      rw [hawait] at hlasts
      simp only [enter, sendOn, hawait]
      refine ⟨.taken rfl (fun a ha => ?_) hadds hheld, hwrite b', hlasts.mono (List.nil_subset _)⟩
      cases ha
      exact ⟨rfl, rfl⟩
  | callback =>
    have hlasts := Switchboard.lasts_deferRegistered c.board now request.requestId (c.bound request) session.table
    by_cases hc : (c.board.table session.table).closed = true
    · obtain ⟨b', hdefer, hadds, hfree, hone⟩ := h.deferRegistered_of_closed ht hc hid now (c.bound request)
      rw [hdefer] at hlasts
      simp only [enter, postOn, hdefer]
      exact ⟨.refusedCallback hc hadds hfree hone, hboard b', hlasts⟩
    · obtain ⟨b', hdefer, hadds, hheld⟩ := h.adds_deferRegistered ht (by simpa using hc) hid hn now (c.bound request)
      rw [hdefer] at hlasts
      simp only [enter, postOn, hdefer]
      exact ⟨.taken rfl nofun hadds hheld, hwrite b', hlasts⟩

end Client

/-- The table of the session that a request has found. -/
def Sent.HasTable (c : Client) (t : TableId) (r : Sent) : Prop :=
  ∃ s, r.session = some s ∧ c.table? r.connection s = some t

private theorem Sent.HasTable.grows {c c' : Client} {t : TableId} {r : Sent} (h : r.HasTable c t) (hg : c.Grows c') :
    r.HasTable c' t := by
  obtain ⟨s, hs, ht⟩ := h
  exact ⟨s, hs, hg.kept _ _ _ ht⟩

private theorem Sent.HasTable.unique {c : Client} {t t' : TableId} {r : Sent} (h : r.HasTable c t)
    (h' : r.HasTable c t') : t = t' := by
  obtain ⟨s, hs, ht⟩ := h
  obtain ⟨s', hs', ht'⟩ := h'
  cases hs.symm.trans hs'
  exact Option.some.inj (ht.symm.trans ht')

namespace Exchange

open Switchboard

variable {x x' : Exchange} {r : Sent} {p : Pending} {ids : List Ident}

/-- A request is pending in the table of its session. -/
def Waits (x : Exchange) (r : Sent) (p : Pending) : Prop :=
  ∃ t, r.HasTable x.client t ∧ x.board.holder? t r.request.requestId = some p

/-- What holds when the requests have identifiers of their own. A request with one of the given identifiers may be
about to be entered. -/
structure Inv (ids : List Ident) (x : Exchange) : Prop where
  clear : x.board.Clear
  separate : x.client.Separate
  entered : ∀ id, (id ∈ x.board.requestIds ∨ ∃ t p, x.board.holder? t id = some p) →
    id ∈ ids ∨ ∃ r ∈ x.sent, r.progress.isUnderway = false ∧ r.request.requestId = id
  status : ∀ r ∈ x.sent, ∀ p, r.progress.pending? = some p → x.board.Knows p ∧ (x.Waits r p ∨ x.board.Done p)
  awaited : ∀ r ∈ x.sent, ∀ a, r.progress = .awaited a →
    a.requestId = r.request.requestId ∧ r.HasTable x.client a.table
  underway : ∀ r ∈ x.sent, r.progress.isUnderway = true → ∃ t, r.HasTable x.client t

/-- What an exchange keeps: the tables of sessions, which of them are torn down and closed, the requests, and every
outcome. -/
structure Keeps (x x' : Exchange) : Prop where
  grows : ∀ i s t, x.client.table? i s = some t → x'.client.table? i s = some t
  torn : ∀ i s, x.client.wasTornDown i s = true → x'.client.wasTornDown i s = true
  closed : ∀ t, (x.board.table t).closed = true → (x'.board.table t).closed = true
  sent : ∀ (n : Nat) (r : Sent), x.sent[n]? = some r → ∃ progress, x'.sent[n]? = some { r with progress } ∧
    (r.progress.isUnderway = false → progress = r.progress)
  heard : ∀ p, x.board.outcomes p ≠ [] → x'.board.outcomes p = x.board.outcomes p

private theorem Keeps.refl (x : Exchange) : x.Keeps x :=
  ⟨fun _ _ _ h => h, fun _ _ h => h, fun _ h => h, fun _ r h => ⟨r.progress, h, fun _ => rfl⟩, fun _ _ => rfl⟩

private theorem Keeps.trans {x'' : Exchange} (h : x.Keeps x') (h' : x'.Keeps x'') : x.Keeps x'' where
  grows i s t ht := h'.grows i s t (h.grows i s t ht)
  torn i s ht := h'.torn i s (h.torn i s ht)
  closed t ht := h'.closed t (h.closed t ht)
  sent n r hr := by
    obtain ⟨progress, hr', hp⟩ := h.sent n r hr
    obtain ⟨progress', hr'', hp'⟩ := h'.sent n _ hr'
    refine ⟨progress', hr'', fun hu => ?_⟩
    have hu' : progress.isUnderway = false := by rw [hp hu, hu]
    exact (hp' hu').trans (hp hu)
  heard p hp := by
    have hp' := h.heard p hp
    rw [h'.heard p (by rwa [hp']), hp']

/-- A sender that has heard something hears nothing more. -/
theorem Keeps.outcomes {n : Nat} (h : x.Keeps x') (hn : x.outcomes n ≠ []) : x'.outcomes n = x.outcomes n := by
  unfold Exchange.outcomes at hn ⊢
  cases hr : x.sent[n]? with
  | none => simp [hr] at hn
  | some r =>
    have hn : r.progress.outcomes x.board ≠ [] := by simpa [hr] using hn
    obtain ⟨progress, hr', hp⟩ := h.sent n r hr
    have hu : r.progress.isUnderway = false := by
      cases hpr : r.progress <;> simp_all [Progress.outcomes, Progress.isUnderway]
    have hsame : progress.outcomes x'.board = r.progress.outcomes x.board := by
      rw [hp hu]
      cases hpr : r.progress with
      | underway => rfl
      | failed failure => rfl
      | awaited a =>
        rw [hpr] at hn
        exact h.heard _ hn
      | posted e =>
        rw [hpr] at hn
        exact h.heard _ hn
    simp [hr', hsame]

/-! ### Settling requests -/

/-- Whatever settles requests on the switchboard and grows the client keeps the accounts. -/
private theorem Inv.settle (h : x.Inv ids) (hsent : x'.sent = x.sent) {b : Switchboard} (hb : x'.board = b)
    (hs : Settled x.board b) (hl : x.board.Lasts [] b) (hg : x.client.Grows x'.client) : x'.Inv ids ∧ x.Keeps x' := by
  subst hb
  obtain ⟨hit, hs, hc⟩ := hs
  refine ⟨⟨h.clear.of_settles hs hc, h.separate.grows hg hl.tables, ?_, ?_, ?_, ?_⟩, hg.kept, hg.torn, hl.closed,
    ?_, ?_⟩
  · intro id hid
    rw [hsent]
    refine h.entered id (hid.imp (fun hm => ?_) ?_)
    · have hm := hl.known id hm
      simpa using hm
    · rintro ⟨t, p, hp⟩
      exact ⟨t, p, ((hs.holder? t id p).mp hp).1⟩
  · intro r hr p hp
    obtain ⟨hknown, hstatus⟩ := h.status r (hsent ▸ hr) p hp
    refine ⟨hknown.mono hs.waiters hl.length_entries, ?_⟩
    rcases hstatus with ⟨t, ht, hheld⟩ | hdone
    · rcases hs.of_holder? h.clear hheld with ⟨-, hheld⟩ | ⟨o, -, -, hdone⟩
      · exact .inl ⟨t, ht.grows hg, hheld⟩
      · exact .inr hdone
    · exact .inr (hs.done h.clear hdone)
  · intro r hr a ha
    obtain ⟨hid, ht⟩ := h.awaited r (hsent ▸ hr) a ha
    exact ⟨hid, ht.grows hg⟩
  · intro r hr hu
    obtain ⟨t, ht⟩ := h.underway r (hsent ▸ hr) hu
    exact ⟨t, ht.grows hg⟩
  · intro n r hr
    exact ⟨r.progress, hsent ▸ hr, fun _ => rfl⟩
  · intro p hp
    exact (hs.outcomes_of_ne_nil h.clear hp).2

private theorem Inv.same (h : x.Inv ids) (hsent : x'.sent = x.sent) (hb : x'.board = x.board)
    (hg : x.client.Grows x'.client) : x'.Inv ids ∧ x.Keeps x' :=
  h.settle hsent hb h.clear.settled_refl (.refl _) hg

private theorem Inv.play (h : x.Inv ids) {e : Interplay.Event} {p : Interplay} (hp : x.play.step e = some p) :
    Inv ids { x with play := p } ∧ x.Keeps { x with play := p } := by
  rcases Interplay.step_cases hp with ⟨n, i, s, rest, -, -, hc⟩ | ⟨hg, hb⟩
  · have hg : x.client.Grows p.client := hc ▸ (Move.follows_make x.client i (.drain s)).grows
    rcases Client.drain_cases x.client i s with ⟨hsame, -⟩ | ⟨session, -, hdrain⟩
    · exact h.same rfl (congrArg Client.board (hc.trans hsame)) hg
    · have hboard : p.client.board = (x.board.drainWith session.table (.error .connectionClosed)).2 :=
        congrArg Client.board (hc.trans hdrain)
      have hsettled := h.clear.settled_drainWith session.table (.error .connectionClosed)
      exact h.settle rfl hboard hsettled (lasts_drainWith x.board session.table _) hg
  · rcases hb with hb | hb
    · exact h.same rfl hb hg
    · exact h.settle rfl hb h.clear.settled_newTable (lasts_newTable x.board) hg

/-- Bytes that come in keep the accounts, whatever they are. -/
theorem Inv.receive (h : x.Inv ids) (i : Nat) (bytes : List UInt8) :
    Inv ids (x.withClient (x.client.receive i bytes)) ∧ x.Keeps (x.withClient (x.client.receive i bytes)) := by
  have hg : x.client.Grows (x.client.receive i bytes) := (Client.follows_receive _ i bytes).grows
  rcases Client.receive_cases x.client i bytes with hc | ⟨k, s, session, frames, unread, -, -, -, hc⟩
  · exact h.same rfl (congrArg Client.board hc) hg
  · have hboard : (x.client.receive i bytes).board = x.board.receiveFrames session.table frames :=
      congrArg Client.board hc
    exact h.settle rfl hboard (h.clear.settled_receiveFrames session.table frames)
      (lasts_receiveFrames frames session.table x.board) hg

/-- A frame that cannot be written keeps the accounts: its request fails if it is still pending. -/
private theorem Inv.failWrite (h : x.Inv ids) (i : Nat) (s : SessionId) (n : Nat) (reason : String) :
    Inv ids (x.withClient (x.client.failWrite i s n reason)) ∧
      x.Keeps (x.withClient (x.client.failWrite i s n reason)) := by
  have hg : x.client.Grows (x.client.failWrite i s n reason) := (Client.follows_failWrite _ i s n reason).grows
  rcases Client.failWrite_cases x.client i s n reason with hc | ⟨session, request, -, hb⟩
  · exact h.same rfl (congrArg Client.board hc) hg
  · cases hp : x.board.holder? session.table request.requestId with
    | none =>
      have htake : x.board.take session.table request.requestId = (none, x.board) := take_of_holder?_eq_none hp
      refine h.same rfl ?_ hg
      exact hb.trans (by rw [show x.client.board = x.board from rfl, htake])
    | some p =>
      have htake := take_of_holder?_eq_some hp
      have hboard : (x.client.failWrite i s n reason).board =
          (x.board.take session.table request.requestId).2.resolve (.error (.write reason)) p :=
        hb.trans (by rw [show x.client.board = x.board from rfl, htake])
      exact h.settle rfl hboard (h.clear.settled_take hp _) ((lasts_take x.board _ _).trans (lasts_resolve _ _ _)) hg

/-- A caller whose time is up keeps the accounts: it leaves its table and hears of the timeout. -/
private theorem Inv.timeOut (h : x.Inv ids) (n : Nat) : Inv ids (x.timeOut n) ∧ x.Keeps (x.timeOut n) := by
  unfold Exchange.timeOut
  split
  · rename_i a ha
    split
    · rename_i hempty
      obtain ⟨r, hr, hra⟩ := Option.map_eq_some_iff.mp ha
      have hmem := List.mem_of_getElem? hr
      -- it has no outcome yet, so it is still pending in its table
      have hheld : x.board.holder? a.table a.requestId = some (.waiter a.waiter) := by
        obtain ⟨hid, ht⟩ := h.awaited r hmem a hra
        have hp : r.progress.pending? = some (.waiter a.waiter) := by rw [hra, Progress.pending?]
        rcases (h.status r hmem _ hp).2 with ⟨t, ht', hheld⟩ | ⟨-, o, ho⟩
        · rw [hid, ht.unique ht']
          exact hheld
        · simp [ho] at hempty
      have hg : x.client.Grows { x.client with board := x.board.timeOut a } :=
        Client.Follows.grows (.of_connections_eq rfl)
      exact h.settle rfl rfl (h.clear.settled_timeOut hheld) (lasts_timeOut _ a) hg
    · exact ⟨h, .refl x⟩
  · exact ⟨h, .refl x⟩

/-! ### Issuing and entering requests -/

/-- A send keeps the accounts: it is noted with the session that it found, or fails at once. -/
private theorem Inv.send (h : x.Inv ids) (i : Nat) (request : Request) (manner : Manner) :
    Inv ids (x.send i request manner) ∧ x.Keeps (x.send i request manner) := by
  have add : ∀ r : Sent, r.progress.pending? = none →
      (r.progress.isUnderway = true → ∃ t, r.HasTable x.client t) → Inv ids { x with sent := x.sent ++ [r] } ∧
      x.Keeps { x with sent := x.sent ++ [r] } := by
    intro r hr hunderway
    refine ⟨⟨h.clear, h.separate, ?_, ?_, ?_, ?_⟩, fun _ _ _ ht => ht, fun _ _ ht => ht, fun _ ht => ht, ?_,
      fun _ _ => rfl⟩
    · intro id hid
      refine (h.entered id hid).imp_right ?_
      rintro ⟨r', hr', hu⟩
      exact ⟨r', List.mem_append_left _ hr', hu⟩
    · intro r' hr' p hp
      rcases List.mem_append.mp hr' with hr' | hr'
      · exact h.status r' hr' p hp
      · cases List.mem_singleton.mp hr'
        cases hr.symm.trans hp
    · intro r' hr' a ha
      rcases List.mem_append.mp hr' with hr' | hr'
      · exact h.awaited r' hr' a ha
      · cases List.mem_singleton.mp hr'
        rw [ha] at hr
        cases hr
    · intro r' hr' hu
      rcases List.mem_append.mp hr' with hr' | hr'
      · exact h.underway r' hr' hu
      · cases List.mem_singleton.mp hr'
        exact hunderway hu
    · intro n r' hr'
      refine ⟨r'.progress, ?_, fun _ => rfl⟩
      rw [List.getElem?_append_left (List.getElem?_eq_some_iff.mp hr').1, hr']
  unfold Exchange.send
  split
  · rename_i s session hlive
    exact add _ rfl fun _ => ⟨session.table, s, rfl, Client.table?_of_session? (Client.session?_of_liveSession? hlive)⟩
  · exact add _ rfl fun hu => by cases hu

/-- Somebody new comes under an identifier that no request has had. -/
private theorem Inv.adds (h : x.Inv []) {id : Ident} (ha : Adds p id x.board x'.board) (hsent : x'.sent = x.sent)
    (hl : x.board.Lasts [id] x'.board) (hf : x.client.Follows x'.client) : x'.Inv [id] ∧ x.Keeps x' := by
  have hne : ∀ {q}, x.board.Knows q → q ≠ p := fun hq he => ha.unknown (he ▸ hq)
  have hg := hf.grows
  refine ⟨⟨ha.clear, h.separate.grows hg hl.tables, ?_, ?_, ?_, ?_⟩, hg.kept, hg.torn, hl.closed, ?_, ?_⟩
  · intro id' hid
    have old : (id' ∈ x.board.requestIds ∨ ∃ t q, x.board.holder? t id' = some q) ∨ id' = id := by
      rcases hid with hm | ⟨t, q, hq⟩
      · rcases hl.known id' hm with hm | hm
        · exact .inl (.inl hm)
        · exact .inr (List.mem_singleton.mp hm)
      · by_cases he : q = p
        · exact .inr (ha.under t id' (he ▸ hq))
        · exact .inl (.inr ⟨t, q, ((ha.others q he).2 t id').mp hq⟩)
    rw [hsent]
    rcases old with hold | rfl
    · exact .inr ((h.entered id' hold).resolve_left List.not_mem_nil)
    · exact .inl (List.mem_singleton_self _)
  · intro r hr q hq
    obtain ⟨hknown, hstatus⟩ := h.status r (hsent ▸ hr) q hq
    obtain ⟨ho, hheld⟩ := ha.others q (hne hknown)
    refine ⟨hknown.mono ha.waiters hl.length_entries, ?_⟩
    rcases hstatus with ⟨t, ht, hw⟩ | ⟨hfree, o, hone⟩
    · exact .inl ⟨t, ht.grows hg, (hheld t _).mpr hw⟩
    · exact .inr ⟨fun t i hi => hfree t i ((hheld t i).mp hi), o, ho.trans hone⟩
  · intro r hr a ha
    obtain ⟨hid, ht⟩ := h.awaited r (hsent ▸ hr) a ha
    exact ⟨hid, ht.grows hg⟩
  · intro r hr hu
    obtain ⟨t, ht⟩ := h.underway r (hsent ▸ hr) hu
    exact ⟨t, ht.grows hg⟩
  · intro n r hr
    exact ⟨r.progress, hsent ▸ hr, fun _ => rfl⟩
  · intro q hq
    refine (ha.others q ?_).1
    rintro rfl
    exact hq (h.clear.of_unknown ha.unknown).2

/-- A request that was entered is recorded as such. -/
private theorem Inv.record (h : x.Inv [r.request.requestId]) {n : Nat} (hn : x.sent[n]? = some r)
    (hu : r.progress.isUnderway = true) (progress : Progress) (hp : progress.isUnderway = false)
    (hstatus : ∀ p, progress.pending? = some p → x.board.Knows p ∧ (x.Waits r p ∨ x.board.Done p))
    (hawaited : ∀ a, progress = .awaited a → a.requestId = r.request.requestId ∧ r.HasTable x.client a.table) :
    Inv [] { x with sent := x.sent.set n { r with progress } } ∧
      x.Keeps { x with sent := x.sent.set n { r with progress } } := by
  have hl := (List.getElem?_eq_some_iff.mp hn).1
  have hset : (x.sent.set n { r with progress })[n]? = some { r with progress } := List.getElem?_set_self hl
  refine ⟨⟨h.clear, h.separate, ?_, ?_, ?_, ?_⟩, fun _ _ _ ht => ht, fun _ _ ht => ht, fun _ ht => ht, ?_,
    fun _ _ => rfl⟩
  · intro id hid
    right
    rcases h.entered id hid with hm | ⟨r', hr', hu', hid'⟩
    · exact ⟨{ r with progress }, List.mem_of_getElem? hset, hp, (List.mem_singleton.mp hm).symm⟩
    · obtain ⟨m, hm⟩ := List.mem_iff_getElem?.mp hr'
      have hne : n ≠ m := by
        rintro rfl
        cases hn.symm.trans hm
        rw [hu] at hu'
        cases hu'
      refine ⟨r', List.mem_of_getElem? (i := m) ?_, hu', hid'⟩
      rw [List.getElem?_set_ne hne, hm]
  · intro r' hr' p hp'
    rcases List.mem_or_eq_of_mem_set hr' with hr' | rfl
    · exact h.status r' hr' p hp'
    · exact hstatus p hp'
  · intro r' hr' a ha
    rcases List.mem_or_eq_of_mem_set hr' with hr' | rfl
    · exact h.awaited r' hr' a ha
    · exact hawaited a ha
  · intro r' hr' hu'
    rcases List.mem_or_eq_of_mem_set hr' with hr' | rfl
    · exact h.underway r' hr' hu'
    · cases hp.symm.trans hu'
  · intro m r' hr'
    by_cases hm : n = m
    · subst hm
      cases hn.symm.trans hr'
      refine ⟨progress, hset, fun hu' => ?_⟩
      rw [hu] at hu'
      cases hu'
    · exact ⟨r'.progress, (List.getElem?_set_ne hm).trans hr', fun _ => rfl⟩

private theorem Inv.weaken (h : x.Inv []) (ids : List Ident) : x.Inv ids :=
  ⟨h.clear, h.separate, fun id hid => .inr ((h.entered id hid).resolve_left List.not_mem_nil), h.status, h.awaited,
    h.underway⟩

/-- The identifiers of all requests, in order. -/
def requestIds (x : Exchange) : List Ident := x.sent.map (·.request.requestId)

/-- A send under way has found a session and has not entered its table yet. -/
theorem underway?_eq_some {n : Nat} {s : SessionId} {session : Session} (h : x.underway? n = some (r, s, session)) :
    x.sent[n]? = some r ∧ r.session = some s ∧ x.client.session? r.connection s = some session ∧
      r.progress.isUnderway = true := by
  simp only [underway?, Option.bind_eq_bind, Option.bind_eq_some_iff] at h
  obtain ⟨r', hr, s', hs, session', hsession, h⟩ := h
  split at h
  · rename_i hu
    cases h
    exact ⟨hr, hs, hsession, hu⟩
  · cases h

/-- Nobody has the identifier of a request that was not entered yet. -/
theorem Inv.free (h : x.Inv []) (hd : x.requestIds.Nodup) {n : Nat} (hn : x.sent[n]? = some r)
    (hu : r.progress.isUnderway = true) :
    r.request.requestId ∉ x.board.requestIds ∧ ∀ t, x.board.holder? t r.request.requestId = none := by
  have hno : ¬ (r.request.requestId ∈ x.board.requestIds ∨ ∃ t p, x.board.holder? t r.request.requestId = some p) := by
    intro hid
    obtain ⟨r', hr', hu', he⟩ := (h.entered _ hid).resolve_left List.not_mem_nil
    obtain ⟨m, hm⟩ := List.mem_iff_getElem?.mp hr'
    have hget : ∀ {k : Nat} {q : Sent}, x.sent[k]? = some q → x.requestIds[k]? = some q.request.requestId := by
      intro k q hq
      rw [requestIds, List.getElem?_map, hq]
      rfl
    have hmn : m = n := by
      refine (List.getElem?_inj ?_ hd).mp ((hget hm).trans ((congrArg some he).trans (hget hn).symm))
      exact (List.getElem?_eq_some_iff.mp (hget hm)).1
    subst hmn
    cases hn.symm.trans hm
    rw [hu] at hu'
    cases hu'
  refine ⟨fun hm => hno (.inl hm), fun t => ?_⟩
  refine Option.eq_none_iff_forall_not_mem.mpr fun p hp => hno (.inr ⟨t, p, hp⟩)

/-- A request that enters its session's table keeps the accounts, whether the table is still open or not. -/
private theorem Inv.enter (h : x.Inv []) (hd : x.requestIds.Nodup) (n now : Nat) :
    Inv [] (x.enter n now) ∧ x.Keeps (x.enter n now) := by
  unfold Exchange.enter
  split
  · rename_i r s session hunderway
    obtain ⟨hn, hs, hsession, hu⟩ := underway?_eq_some hunderway
    obtain ⟨hid, hfree⟩ := h.free hd hn hu
    have htable := Client.table?_of_session? hsession
    have hlt := h.separate.placed _ _ _ htable
    obtain ⟨hentry, hf, hl⟩ := Client.admission_enter h.clear hlt hid (hfree _) now r.connection s r.manner
    generalize x.client.enter now r.connection s session r.request r.manner = entered at hentry hf hl
    obtain ⟨progress, c⟩ := entered
    have hkept : c.table? r.connection s = some session.table := hf.grows.kept _ _ _ htable
    dsimp only at hentry hf hl ⊢
    cases hentry with
    | @taken progress c p pending awaited adds held =>
      have hadds : Inv [r.request.requestId] (x.withClient c) ∧ x.Keeps (x.withClient c) := h.adds adds rfl hl hf
      have hp : progress.isUnderway = false := by cases progress <;> first | rfl | cases pending
      obtain ⟨hinv, hkeeps⟩ := hadds.1.record hn hu progress hp
        (fun q hq => by
          cases pending.symm.trans hq
          exact ⟨adds.known, .inl ⟨session.table, ⟨s, hs, hkept⟩, held⟩⟩)
        (fun a ha => ⟨(awaited a ha).2, s, hs, (awaited a ha).1 ▸ hkept⟩)
      exact ⟨hinv, hadds.2.trans hkeeps⟩
    | refused closed settled lasts =>
      have hsettle : Inv [] (x.withClient c) ∧ x.Keeps (x.withClient c) := h.settle rfl rfl settled lasts hf.grows
      obtain ⟨hinv, hkeeps⟩ := (hsettle.1.weaken [r.request.requestId]).record hn hu (.failed .connectionClosed) rfl
        (fun _ hp => by cases hp) (fun _ ha => by cases ha)
      exact ⟨hinv, hsettle.2.trans hkeeps⟩
    | @refusedCallback e c closed adds free outcomes =>
      have hadds : Inv [r.request.requestId] (x.withClient c) ∧ x.Keeps (x.withClient c) := h.adds adds rfl hl hf
      obtain ⟨hinv, hkeeps⟩ := hadds.1.record hn hu (.posted e) rfl
        (fun q hq => by
          cases hq
          exact ⟨adds.known, .inr ⟨free, _, outcomes⟩⟩)
        (fun _ ha => by cases ha)
      exact ⟨hinv, hadds.2.trans hkeeps⟩
  · exact ⟨h, .refl x⟩

/-! ### Every event, and every run -/

private theorem requestIds_enter (x : Exchange) (n now : Nat) : (x.enter n now).requestIds = x.requestIds := by
  unfold Exchange.enter
  split
  · rename_i r s session hunderway
    obtain ⟨hn, -⟩ := underway?_eq_some hunderway
    obtain ⟨hl, rfl⟩ := List.getElem?_eq_some_iff.mp hn
    have hl' : n < (x.sent.map (·.request.requestId)).length := by simpa using hl
    have hm : x.sent[n].request.requestId = (x.sent.map (·.request.requestId))[n] := by simp
    simp only [requestIds, List.map_set]
    rw [hm, List.set_getElem_self]
  · rfl

private theorem requestIds_step (x : Exchange) (e : Event) :
    (x.step e).requestIds = x.requestIds ++ e.requestId?.toList := by
  cases e with
  | send i request manner =>
    simp only [Exchange.step, Exchange.send]
    split <;> simp [requestIds, Event.requestId?]
  | enter n now => simp [Exchange.step, requestIds_enter, Event.requestId?]
  | timeOut n =>
    have hsent : (x.timeOut n).requestIds = x.requestIds := by
      unfold Exchange.timeOut
      split
      · split <;> rfl
      · rfl
    simp [Exchange.step, hsent, Event.requestId?]
  | _ => simp [Exchange.step, requestIds, withClient, withBoard, Event.requestId?]

/-- Every event keeps the accounts as long as no identifier is used twice. -/
theorem Inv.step (h : x.Inv []) (e : Event) (hd : x.requestIds.Nodup) : Inv [] (x.step e) ∧ x.Keeps (x.step e) := by
  cases e with
  | play e =>
    simp only [Exchange.step]
    cases hp : x.play.step e with
    | none => exact ⟨h, .refl x⟩
    | some p => exact h.play hp
  | send i request manner => exact h.send i request manner
  | enter n now => exact h.enter hd n now
  | receive i bytes => exact h.receive i bytes
  | timeOut n => exact h.timeOut n
  | expireDue second =>
    have hg : x.client.Grows { x.client with board := (x.board.expireDue second).2 } :=
      Client.Follows.grows (.of_connections_eq rfl)
    exact h.settle rfl rfl (h.clear.settled_expireDue second) (lasts_expireDue _ second) hg
  | write i s n => exact h.same rfl rfl (Client.follows_write _ i s n).grows
  | failWrite i s n reason => exact h.failWrite i s n reason

/-- The identifiers of a run are those of its sends. -/
theorem requestIds_run (x : Exchange) (events : List Event) :
    (x.run events).requestIds = x.requestIds ++ events.filterMap (·.requestId?) := by
  induction events generalizing x with
  | nil => simp
  | cons e events ih =>
    rw [run_cons, ih, requestIds_step]
    cases hr : e.requestId? <;> simp [hr]

/-- A run keeps the accounts if the identifiers of all its sends are distinct. -/
theorem Inv.run (h : x.Inv []) (events : List Event)
    (hd : (x.requestIds ++ events.filterMap (·.requestId?)).Nodup) :
    Inv [] (x.run events) ∧ x.Keeps (x.run events) := by
  induction events generalizing x with
  | nil => exact ⟨h, .refl x⟩
  | cons e events ih =>
    obtain ⟨hinv, hkeeps⟩ := h.step e (List.nodup_append.mp hd).1
    have hids : x.requestIds ++ (e :: events).filterMap (·.requestId?) =
        (x.step e).requestIds ++ events.filterMap (·.requestId?) := by
      rw [requestIds_step]
      cases hr : e.requestId? <;> simp [hr]
    obtain ⟨hinv', hkeeps'⟩ := ih hinv (hids ▸ hd)
    exact ⟨hinv', hkeeps.trans hkeeps'⟩

/-- A client starts with nothing pending and no session. -/
theorem inv_start {config : Config} {replicated : Bool} {ids : IdSource} {c : Client}
    (hc : Client.start config replicated ids = .ok c) : Inv [] (fresh c) := by
  have hboard : c.board = {} := Client.board_start hc
  have htable : ∀ i s, c.table? i s = none := by
    intro i s
    rw [Client.table?, Client.session?]
    cases hk : c.connections[i]? with
    | none => rfl
    | some k =>
      obtain ⟨address, rfl⟩ := (Client.start_fresh hc).2 k (List.mem_of_getElem? hk)
      rfl
  have hholder : ∀ t id, ({} : Switchboard).holder? t id = none := fun _ _ => rfl
  have hclear : ({} : Switchboard).Clear :=
    ⟨coherent_empty, by simp [hholder], by simp [hholder], by simp [hholder], fun _ _ => rfl⟩
  have hstart : c.board.Clear := hboard ▸ hclear
  refine ⟨hstart, ⟨fun i s t ht => ?_, fun i s i' s' t ht => ?_⟩, ?_, fun r hr => absurd hr List.not_mem_nil,
    fun r hr => absurd hr List.not_mem_nil, fun r hr => absurd hr List.not_mem_nil⟩
  · cases (htable i s).symm.trans ht
  · cases (htable i s).symm.trans ht
  · intro id hid
    change id ∈ c.board.requestIds ∨ (∃ t p, c.board.holder? t id = some p) at hid
    rw [hboard] at hid
    rcases hid with hid | ⟨t, p, hp⟩
    · cases hid
    · cases (hholder t id).symm.trans hp

end Exchange

end LockService
