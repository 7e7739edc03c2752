import LockService.Primitive.SemaphoreUse
import LockService.Proofs.Idents
import LockService.Service.Slots
import Mathlib.Data.List.Induction
import Mathlib.Data.List.Perm.Subperm

/-!
# How many hold a semaphore

On a service that keeps the holders of its key, a semaphore has at most as many holders as permits, whoever uses it and
in whatever order the service decides on their requests: every holder allows one less than that beside itself, and every
acquire asks for a place of its own. An acquire that must be answered at once is granted exactly when a place is left,
and every release that succeeds frees one (`Semaphore.Users.keeps_permits`).
-/

namespace LockService.Semaphore

variable {τ : Type} {clients : Nat}

/-! ### The requests of the calls -/

/-- The request that a call sends. -/
def requestOf (h : Semaphore) (ids : IdSource) : SemaphoreCall → LockRequest
  | .acquire | .postAcquire => (h.slotAs ids.upcoming).requestWith .lock 0 ids.advance.upcoming
  | .release | .postRelease =>
    { (h.slotAs ids.upcoming).requestWith .unlock UnlockFlag.oldestHolder ids.advance.upcoming with
      lockId := Ident.zero }

/-- What a call tells of the answer to its request. -/
def told (outcome : Outcome Reply) : Call Unit (Outcome LockReply) := .done (outcome >>= lockOutcome)

/-- With or without a callback, a call draws two identifiers, sends one request and tells what its answer says. -/
private theorem advance_perform (h : Semaphore) (call : SemaphoreCall) (ids : IdSource) :
    (h.perform call).advance () ids = (.waiting (h.requestOf ids call) told, (), ids.advance.advance) := by
  cases call <;> rfl

/-- A request of a handle of a semaphore. An acquire asks for a place under an identifier of its own. -/
inductive IsOurs (dbId : UInt8) (key : LockKey) (permits : UInt16) (r : LockRequest) : Prop where
  | acquire (about : r.IsAbout dbId key .lock 0) (count : r.count = atLeastOne permits - 1)
  | release (about : r.IsAbout dbId key .unlock UnlockFlag.oldestHolder) (lockId : r.lockId = Ident.zero)

private theorem isOurs_requestOf {dbId : UInt8} {key : LockKey} {permits : UInt16} {client : Fin clients}
    {handle : Semaphore}
    {call : SemaphoreCall} (h : (Use.start client handle call).Concerns dbId key permits) (ids : IdSource) :
    IsOurs dbId key permits (handle.requestOf ids call) := by
  obtain ⟨db, timeout, expire, rfl, rfl⟩ := h
  cases call with
  | acquire | postAcquire => exact .acquire ⟨rfl, rfl, rfl, rfl⟩ rfl
  | release | postRelease => exact .release ⟨rfl, rfl, rfl, rfl⟩ rfl

namespace Users

variable {respond : Responder τ} {p : Users τ clients} {sources : Fin clients → IdSource}

/-! ### What happens -/

private theorem step_start (respond : Responder τ) (p : Users τ clients) (client : Fin clients) (h : Semaphore)
    (call : SemaphoreCall) : p.step respond (.start client h call) = { p with
      sources := Function.update p.sources client (p.sources client).advance.advance
      underWay := p.underWay ++ [(client, ⟨h.requestOf (p.sources client) call, told⟩)] } := by
  simp only [step, runSection, advance_perform]

private theorem step_decide {n : Nat} {client : Fin clients} {u : UnderWay Unit (Outcome LockReply)}
    (hu : p.underWay[n]? = some (client, u)) (ht : u.resume = told) : p.step respond (.decide n) = { p with
      peer := (respond p.peer u.request).2
      underWay := p.underWay.eraseIdx n
      finished := p.finished ++ [(respond p.peer u.request).1 >>= lockOutcome] } := by
  simp only [step, hu, ht, runSection, told, Call.advance, Function.update_eq_self]

private theorem step_decide_of_none {n : Nat} (hu : p.underWay[n]? = none) : p.step respond (.decide n) = p := by
  simp only [step, hu]

/-! ### Places are asked for under identifiers of their own -/

/-- The identifiers under which places are asked for. -/
def asked (p : Users τ clients) : List Ident :=
  (p.underWay.filter fun w => w.2.request.kind = .lock).map fun w => w.2.request.lockId

/-- The sources go on from where they were. -/
def Continues (p : Users τ clients) (sources : Fin clients → IdSource) : Prop :=
  ∀ client, ∃ k, p.sources client = IdSource.advance^[k] (sources client)

private theorem drawn_eq_take {client : Fin clients} {k : Nat}
    (h : p.sources client = IdSource.advance^[k] (sources client)) :
    p.drawn sources client = (sources client).take k := by
  rw [drawn, h, IdSource.drawn_iterate, Nat.add_sub_cancel_left]

private theorem advance_advance_iterate (k : Nat) (source : IdSource) :
    (IdSource.advance^[k] source).advance.advance = IdSource.advance^[k + 2] source := by
  rw [Function.iterate_succ_apply', Function.iterate_succ_apply']

private theorem Continues.start (h : p.Continues sources) (client : Fin clients) (handle : Semaphore)
    (call : SemaphoreCall) : (p.step respond (.start client handle call)).Continues sources := by
  intro other
  obtain ⟨k, hk⟩ := h other
  rw [step_start]
  by_cases ho : other = client
  · subst ho
    exact ⟨k + 2, by rw [← advance_advance_iterate, ← hk]; exact Function.update_self ..⟩
  · exact ⟨k, (Function.update_of_ne ho ..).trans hk⟩

/-- A client that makes a call draws two identifiers, and nobody else does. -/
private theorem Continues.drawn_start (h : p.Continues sources) (respond : Responder τ) (client : Fin clients)
    (handle : Semaphore) (call : SemaphoreCall) (other : Fin clients) :
    (p.step respond (.start client handle call)).drawn sources other = p.drawn sources other ++
      if other = client then [(p.sources client).upcoming, (p.sources client).advance.upcoming] else [] := by
  obtain ⟨k, hk⟩ := h other
  rw [drawn_eq_take hk, step_start]
  by_cases ho : other = client
  · subst ho
    have hnext : Function.update p.sources other (p.sources other).advance.advance other =
        IdSource.advance^[k + 2] (sources other) := by
      rw [Function.update_self, hk, advance_advance_iterate]
    rw [drawn_eq_take hnext, IdSource.take_add, if_pos rfl, ← hk]
    rfl
  · have hsame : Function.update p.sources client (p.sources client).advance.advance other =
        IdSource.advance^[k] (sources other) := (Function.update_of_ne ho ..).trans hk
    rw [drawn_eq_take hsame, if_neg ho, List.append_nil]

/-- What a client draws next has been drawn by nobody. -/
theorem KeepsApart.upcoming_not_mem (hc : p.Continues sources) {client : Fin clients} {handle : Semaphore}
    {call : SemaphoreCall} (h : (p.step respond (.start client handle call)).KeepsApart sources)
    (other : Fin clients) : (p.sources client).upcoming ∉ p.drawn sources other := by
  have hclient := hc.drawn_start respond client handle call client
  have hother := hc.drawn_start respond client handle call other
  intro hm
  by_cases ho : other = client
  · subst ho
    have hnodup : ((p.step respond (.start other handle call)).drawn sources other).Nodup :=
      IdSource.nodup_take (by simpa [drawn] using h.enough other) _
    rw [hclient, if_pos rfl] at hnodup
    exact (List.nodup_append.mp hnodup).2.2 _ hm _ List.mem_cons_self rfl
  · refine h.apart client other (Ne.symm ho) (p.sources client).upcoming ?_ ?_
    · rw [hclient, if_pos rfl]
      exact List.mem_append_right _ List.mem_cons_self
    · rw [hother]
      exact List.mem_append_left _ hm

private theorem KeepsApart.of_prefix {p' : Users τ clients} (h : p'.KeepsApart sources)
    (hd : ∀ client, p.drawn sources client <+: p'.drawn sources client) : p.KeepsApart sources :=
  ⟨fun client => Nat.le_trans (hd client).length_le (h.enough client),
    fun client other hne id hid hid' => h.apart client other hne id ((hd client).subset hid) ((hd other).subset hid')⟩

/-! ### What every use keeps -/

section Keeps

variable {dbId : UInt8} {key : LockKey} {holders : τ → List SlotHolder} {permits : UInt16}

/-- The sources go on from where they were, and all requests are of handles of the semaphore. -/
structure Regular (dbId : UInt8) (key : LockKey) (permits : UInt16) (sources : Fin clients → IdSource)
    (p : Users τ clients) : Prop where
  continues : p.Continues sources
  ours : ∀ w ∈ p.underWay, IsOurs dbId key permits w.2.request ∧ w.2.resume = told

/-- Whatever a client does, its source goes on, and what is under way are requests of the semaphore. -/
private theorem Regular.step (hp : Regular dbId key permits sources p) {use : Use clients}
    (huse : use.Concerns dbId key permits) : Regular dbId key permits sources (p.step respond use) := by
  cases use with
  | start client handle call =>
    refine ⟨hp.continues.start client handle call, fun w hw => ?_⟩
    rw [step_start] at hw
    rcases List.mem_append.mp hw with hw | hw
    · exact hp.ours w hw
    · obtain rfl := List.mem_singleton.mp hw
      exact ⟨isOurs_requestOf huse _, rfl⟩
  | decide n =>
    cases hw : p.underWay[n]? with
    | none =>
      rw [step_decide_of_none hw]
      exact hp
    | some w =>
      obtain ⟨client, u⟩ := w
      rw [step_decide hw (hp.ours _ (List.mem_of_getElem? hw)).2]
      exact ⟨hp.continues, fun w' hw' => hp.ours w' (List.mem_of_mem_eraseIdx hw')⟩

/-- Identifiers that are drawn stay drawn. -/
private theorem Regular.drawn_step (hp : Regular dbId key permits sources p) (use : Use clients)
    (client : Fin clients) : p.drawn sources client <+: (p.step respond use).drawn sources client := by
  cases use with
  | start other handle call =>
    rw [hp.continues.drawn_start]
    exact List.prefix_append _ _
  | decide n =>
    cases hw : p.underWay[n]? with
    | none =>
      simp only [step_decide_of_none hw]
      exact List.prefix_rfl
    | some w =>
      obtain ⟨other, u⟩ := w
      rw [step_decide hw (hp.ours _ (List.mem_of_getElem? hw)).2]
      exact List.prefix_rfl

private theorem regular_run (respond : Responder τ) (sources : Fin clients → IdSource) (peer : τ)
    {uses : List (Use clients)} (huses : ∀ use ∈ uses, use.Concerns dbId key permits) :
    Regular dbId key permits sources (run respond { sources, peer } uses) := by
  induction uses using List.reverseRecOn with
  | nil => exact ⟨fun _ => ⟨0, rfl⟩, fun w hw => absurd hw List.not_mem_nil⟩
  | append_singleton uses use ih =>
    rw [run_concat]
    exact (ih fun u hu => huses u (List.mem_append_left _ hu)).step
      (huses use (List.mem_append_right _ List.mem_cons_self))

private theorem drawn_prefix (respond : Responder τ) (peer : τ) {before uses : List (Use clients)}
    (hb : before <+: uses) (huses : ∀ use ∈ uses, use.Concerns dbId key permits) (client : Fin clients) :
    (run respond { sources, peer } before).drawn sources client <+:
      (run respond { sources, peer } uses).drawn sources client := by
  obtain ⟨after, rfl⟩ := hb
  induction after using List.reverseRecOn with
  | nil => simp
  | append_singleton after use ih =>
    rw [← List.append_assoc] at huses ⊢
    have hearlier := fun u hu => huses u (List.mem_append_left _ hu)
    rw [run_concat]
    exact (ih hearlier).trans ((regular_run respond sources peer hearlier).drawn_step use client)

/-- There are no more holders than permits, and all of them allow as many others as the handles of the semaphore do. -/
structure Capped (permits : UInt16) (holders : List SlotHolder) : Prop where
  counts : ∀ holder ∈ holders, holder.count = atLeastOne permits - 1
  cap : holders.length ≤ max permits.toNat 1

private theorem capped_nil (permits : UInt16) : Capped permits [] :=
  ⟨fun _ hh => absurd hh List.not_mem_nil, Nat.zero_le _⟩

/-! ### What a decision does -/

/-- What the service makes of a request, when `cap` places are there in all: an acquire that is granted takes a place
that was left, and one that must be answered at once is granted exactly when there was one. A release that succeeds
frees the oldest place, and one that fails finds none. The caller is told so. -/
structure Decided (respond : Responder τ) (holders : τ → List SlotHolder) (cap : Nat) (request : LockRequest)
    (p p' : Users τ clients) : Prop where
  told : p'.finished = p.finished ++ [(respond p.peer request).1 >>= lockOutcome]
  granted : request.kind = .lock → (respond p.peer request).1.isGrant = true →
    (holders p.peer).length < cap ∧ holders p'.peer = holders p.peer ++ [⟨request.lockId, request.count⟩]
  refused : request.kind = .lock → (respond p.peer request).1.isGrant = false → holders p'.peer = holders p.peer
  hasty : request.kind = .lock → request.IsHasty →
    ((respond p.peer request).1.isGrant = true ↔ (holders p.peer).length < cap)
  released : request.kind = .unlock → (respond p.peer request).1.isGrant = true →
    ∃ oldest, holders p.peer = oldest :: holders p'.peer
  unfilled : request.kind = .unlock → (respond p.peer request).1.isGrant = false →
    holders p.peer = [] ∧ holders p'.peer = []

/-- The identifier of an acquire does not hold the key. -/
def IsNew (holders : τ → List SlotHolder) (p : Users τ clients) (request : LockRequest) : Prop :=
  request.kind = .lock → request.lockId ∉ (holders p.peer).map (·.id)

section Decisions

variable {p' : Users τ clients} {request : LockRequest}

/-- An acquire is granted exactly if there is a place, or waits in vain for one. -/
private theorem Capped.decideAcquire (service : KeepsSlots respond dbId key holders)
    (hc : Capped permits (holders p.peer)) (about : request.IsAbout dbId key .lock 0)
    (count : request.count = atLeastOne permits - 1) (hnew : IsNew holders p request)
    (hpeer : p'.peer = (respond p.peer request).2)
    (told : p'.finished = p.finished ++ [(respond p.peer request).1 >>= lockOutcome]) :
    Capped permits (holders p'.peer) ∧ Decided respond holders (max permits.toNat 1) request p p' := by
  have hkind : request.kind ≠ .unlock := by simp [about.kind]
  have hroom := hasRoomFor_iff hc.counts
  have hpermits := toNat_atLeastOne_sub_one permits
  rcases service.lock p.peer request about (hnew about.kind) with
    ⟨hcode, hleft, hafter⟩ | ⟨code, hne, hcode, hfull, hafter⟩
  all_goals rw [← hpeer] at hafter
  · have hgrant : (respond p.peer request).1.isGrant = true := hcode.isGrant_iff.mpr rfl
    rw [count, hroom] at hleft
    refine ⟨⟨?_, ?_⟩, told, fun _ _ => ⟨by omega, hafter⟩, fun _ hr => ?_,
      fun _ _ => iff_of_true hgrant (by omega), fun hk => absurd hk hkind, fun hk => absurd hk hkind⟩
    · rw [hafter]
      intro holder hh
      rcases List.mem_append.mp hh with hh | hh
      · exact hc.counts holder hh
      · rw [List.mem_singleton.mp hh, count]
    · rw [hafter, List.length_append, List.length_singleton]
      omega
    · rw [hgrant] at hr
      cases hr
  · have hrefused : ¬ (respond p.peer request).1.isGrant = true := fun hg => hne (hcode.isGrant_iff.mp hg)
    refine ⟨hafter ▸ hc, told, fun _ hg => absurd hg hrefused, fun _ _ => hafter,
      fun _ hhasty => iff_of_false hrefused ?_, fun hk => absurd hk hkind, fun hk => absurd hk hkind⟩
    have hno := hfull hhasty
    rw [count, hroom] at hno
    omega

/-- A release frees the oldest place, if there is one. -/
private theorem Capped.decideRelease (service : KeepsSlots respond dbId key holders)
    (hc : Capped permits (holders p.peer)) (about : request.IsAbout dbId key .unlock UnlockFlag.oldestHolder)
    (lockId : request.lockId = Ident.zero) (hpeer : p'.peer = (respond p.peer request).2)
    (told : p'.finished = p.finished ++ [(respond p.peer request).1 >>= lockOutcome]) :
    Capped permits (holders p'.peer) ∧ Decided respond holders (max permits.toNat 1) request p p' := by
  have hkind : request.kind ≠ .lock := by simp [about.kind]
  cases hh : holders p.peer with
  | nil =>
    obtain ⟨hcode, hafter⟩ := service.unlock_free p.peer request about lockId hh
    have hrefused : ¬ (respond p.peer request).1.isGrant = true := fun hg =>
      absurd (hcode.isGrant_iff.mp hg) (by decide)
    rw [← hpeer] at hafter
    exact ⟨hafter ▸ capped_nil permits, told, fun hk => absurd hk hkind, fun hk => absurd hk hkind,
      fun hk => absurd hk hkind, fun _ hg => absurd hg hrefused, fun _ _ => ⟨hh, hafter⟩⟩
  | cons oldest rest =>
    obtain ⟨hcode, hafter⟩ := service.unlock_held p.peer request oldest rest about lockId hh
    have hgrant : (respond p.peer request).1.isGrant = true := hcode.isGrant_iff.mpr rfl
    rw [← hpeer] at hafter
    rw [hh] at hc
    refine ⟨⟨?_, ?_⟩, told, fun hk => absurd hk hkind, fun hk => absurd hk hkind, fun hk => absurd hk hkind,
      fun _ _ => ⟨oldest, by rw [hafter, hh]⟩, fun _ hr => ?_⟩
    · rw [hafter]
      exact fun holder hm => hc.counts holder (List.mem_cons_of_mem _ hm)
    · have hcap := hc.cap
      rw [List.length_cons] at hcap
      rw [hafter]
      omega
    · rw [hgrant] at hr
      cases hr

end Decisions

/-- Every decision of the service keeps the cap, and is what it should be. -/
private theorem Regular.decide (service : KeepsSlots respond dbId key holders) (hp : Regular dbId key permits sources p)
    (hc : Capped permits (holders p.peer)) {n : Nat} {w : Fin clients × UnderWay Unit (Outcome LockReply)}
    (hw : p.underWay[n]? = some w) (hnew : IsNew holders p w.2.request) :
    Capped permits (holders (p.step respond (.decide n)).peer) ∧
      Decided respond holders (max permits.toNat 1) w.2.request p (p.step respond (.decide n)) := by
  obtain ⟨client, u⟩ := w
  obtain ⟨hours, hresume⟩ := hp.ours _ (List.mem_of_getElem? hw)
  rw [step_decide hw hresume]
  cases hours with
  | acquire about count => exact hc.decideAcquire service about count hnew rfl rfl
  | release about lockId => exact hc.decideRelease service about lockId rfl rfl

/-! ### No identifier is used for two places -/

/-- The identifiers of the holders and those under which places are asked for. -/
def places (holders : τ → List SlotHolder) (p : Users τ clients) : List Ident :=
  (holders p.peer).map (·.id) ++ p.asked

structure Distinct (holders : τ → List SlotHolder) (sources : Fin clients → IdSource) (p : Users τ clients) : Prop where
  distinct : (p.places holders).Nodup
  drawn : ∀ id ∈ p.places holders, ∃ client, id ∈ p.drawn sources client

private theorem perm_asked_eraseIdx {n : Nat} {w : Fin clients × UnderWay Unit (Outcome LockReply)}
    (hw : p.underWay[n]? = some w) : p.asked.Perm ((if w.2.request.kind = .lock then [w.2.request.lockId] else []) ++
      asked { p with underWay := p.underWay.eraseIdx n }) := by
  obtain ⟨hn, rfl⟩ := List.getElem?_eq_some_iff.mp hw
  have hperm := ((List.getElem_cons_eraseIdx_perm hn).filter fun w => w.2.request.kind = .lock).map
    fun w => w.2.request.lockId
  by_cases hk : p.underWay[n].2.request.kind = .lock
  · rw [List.filter_cons_of_pos (by simpa using hk), List.map_cons] at hperm
    rw [if_pos hk]
    exact hperm.symm
  · rw [List.filter_cons_of_neg (by simpa using hk)] at hperm
    rw [if_neg hk]
    exact hperm.symm

private theorem Distinct.isNew (hd : Distinct holders sources p) {n : Nat}
    {w : Fin clients × UnderWay Unit (Outcome LockReply)} (hw : p.underWay[n]? = some w) :
    IsNew holders p w.2.request := by
  intro hk hm
  have hperm := (perm_asked_eraseIdx hw).append_left ((holders p.peer).map (·.id))
  rw [if_pos hk] at hperm
  exact (List.nodup_append.mp (hperm.nodup_iff.mp hd.distinct)).2.2 _ hm _ List.mem_cons_self rfl

/-- A decision gives nobody a place that he did not ask for. -/
private theorem Distinct.decide (hd : Distinct holders sources p) (hp : Regular dbId key permits sources p) {n : Nat}
    {w : Fin clients × UnderWay Unit (Outcome LockReply)} (hw : p.underWay[n]? = some w) {cap : Nat}
    (hdecided : Decided respond holders cap w.2.request p (p.step respond (.decide n))) :
    Distinct holders sources (p.step respond (.decide n)) := by
  obtain ⟨hours, ht⟩ := hp.ours w (List.mem_of_getElem? hw)
  have hperm := perm_asked_eraseIdx hw
  have hsub : ((p.step respond (.decide n)).places holders).Subperm (p.places holders) := by
    have hasked : (p.step respond (.decide n)).asked = asked { p with underWay := p.underWay.eraseIdx n } := by
      rw [step_decide hw ht]
      rfl
    rw [places, places, hasked]
    have hless : (asked { p with underWay := p.underWay.eraseIdx n }).Subperm p.asked :=
      (List.sublist_append_right _ _).subperm.trans hperm.symm.subperm
    cases hours with
    | acquire about =>
      have hk := about.kind
      cases hg : (respond p.peer w.2.request).1.isGrant with
      | true =>
        rw [(hdecided.granted hk hg).2, List.map_append, List.append_assoc]
        rw [if_pos hk] at hperm
        exact (hperm.symm.append_left _).subperm
      | false =>
        rw [hdecided.refused hk hg]
        exact (List.subperm_append_left _).mpr hless
    | release about =>
      have hk := about.kind
      have hfewer : (holders (p.step respond (.decide n)).peer).Sublist (holders p.peer) := by
        cases hg : (respond p.peer w.2.request).1.isGrant with
        | true =>
          obtain ⟨oldest, ho⟩ := hdecided.released hk hg
          rw [ho]
          exact List.sublist_cons_self _ _
        | false =>
          rw [(hdecided.unfilled hk hg).2]
          exact List.nil_sublist _
      exact ((hfewer.map _).append_right _).subperm.trans ((List.subperm_append_left _).mpr hless)
  obtain ⟨places, hplaces, hsublist⟩ := hsub
  refine ⟨hplaces.nodup_iff.mp (hd.distinct.sublist hsublist), fun id hid => ?_⟩
  obtain ⟨client, hclient⟩ := hd.drawn id (hsublist.subset (hplaces.mem_iff.mpr hid))
  refine ⟨client, ?_⟩
  rw [step_decide hw ht]
  exact hclient

private theorem Distinct.start (hd : Distinct holders sources p) (hc : p.Continues sources) {client : Fin clients}
    {handle : Semaphore} {call : SemaphoreCall}
    (hids : (p.step respond (.start client handle call)).KeepsApart sources) :
    Distinct holders sources (p.step respond (.start client handle call)) := by
  have hdrawn := hc.drawn_start respond client handle call
  have hnew : (p.sources client).upcoming ∉ p.places holders := by
    intro hm
    obtain ⟨other, ho⟩ := hd.drawn _ hm
    exact hids.upcoming_not_mem hc other ho
  have hplaces : (p.step respond (.start client handle call)).places holders = p.places holders ++
      if call = .acquire ∨ call = .postAcquire then [(p.sources client).upcoming] else [] := by
    rw [step_start, places, places, List.append_assoc]
    cases call <;> simp [asked, requestOf, Lock.requestWith, slotAs]
  refine ⟨?_, fun id hid => ?_⟩
  · rw [hplaces]
    split
    · exact List.nodup_append.mpr ⟨hd.distinct, List.nodup_singleton _, fun id hid id' hid' he =>
        hnew (List.mem_singleton.mp hid' ▸ he ▸ hid)⟩
    · rw [List.append_nil]
      exact hd.distinct
  · rw [hplaces] at hid
    rcases List.mem_append.mp hid with hid | hid
    · obtain ⟨other, ho⟩ := hd.drawn id hid
      exact ⟨other, hdrawn other ▸ List.mem_append_left _ ho⟩
    · refine ⟨client, hdrawn client ▸ List.mem_append_right _ ?_⟩
      split at hid
      · rw [if_pos rfl, List.mem_singleton.mp hid]
        exact List.mem_cons_self
      · cases hid

/-! ### Whole runs -/

/-- The service never decides on an acquire under an identifier that holds the key. -/
def NeverReenters (respond : Responder τ) (holders : τ → List SlotHolder) (p : Users τ clients)
    (uses : List (Use clients)) : Prop :=
  ∀ before n w, before ++ [.decide n] <+: uses → (p.run respond before).underWay[n]? = some w →
    IsNew holders (p.run respond before) w.2.request

/-- A use keeps the number of holders under the cap as long as what is decided is asked for once. -/
private theorem Regular.capped_step (service : KeepsSlots respond dbId key holders)
    (hp : Regular dbId key permits sources p) (hc : Capped permits (holders p.peer)) {use : Use clients}
    (hnew : ∀ n w, use = .decide n → p.underWay[n]? = some w → IsNew holders p w.2.request) :
    Capped permits (holders (p.step respond use).peer) := by
  cases use with
  | start client handle call =>
    rw [step_start]
    exact hc
  | decide n =>
    cases hw : p.underWay[n]? with
    | none =>
      rw [step_decide_of_none hw]
      exact hc
    | some w => exact (hp.decide service hc hw (hnew n w rfl hw)).1

private theorem capped_run (service : KeepsSlots respond dbId key holders) {peer : τ} (hfree : holders peer = [])
    {uses : List (Use clients)} (huses : ∀ use ∈ uses, use.Concerns dbId key permits)
    (hnew : NeverReenters respond holders { sources, peer } uses) :
    Capped permits (holders (run respond { sources, peer } uses).peer) := by
  induction uses using List.reverseRecOn with
  | nil =>
    rw [run_nil, hfree]
    exact capped_nil permits
  | append_singleton uses use ih =>
    have hearlier := fun u hu => huses u (List.mem_append_left _ hu)
    have hcapped := ih hearlier fun before n w hb hw => hnew before n w (hb.trans (List.prefix_append _ _)) hw
    rw [run_concat]
    refine (regular_run respond sources peer hearlier).capped_step service hcapped fun n w hu hw => ?_
    exact hnew uses n w (hu ▸ List.prefix_rfl) hw

/-- While the identifiers of the clients are apart none is held or asked for twice, and the cap is kept. -/
private theorem distinct_run (service : KeepsSlots respond dbId key holders) {peer : τ} (hfree : holders peer = [])
    {uses : List (Use clients)} (huses : ∀ use ∈ uses, use.Concerns dbId key permits)
    (hids : (run respond { sources, peer } uses).KeepsApart sources) :
    Distinct holders sources (run respond { sources, peer } uses) ∧
      Capped permits (holders (run respond { sources, peer } uses).peer) := by
  induction uses using List.reverseRecOn with
  | nil =>
    have hnone : places holders (run respond { sources, peer } []) = [] := by
      rw [run_nil, places, hfree]
      rfl
    refine ⟨⟨hnone ▸ List.nodup_nil, fun id hid => ?_⟩, ?_⟩
    · rw [hnone] at hid
      cases hid
    · rw [run_nil, hfree]
      exact capped_nil permits
  | append_singleton uses use ih =>
    have hearlier := fun u hu => huses u (List.mem_append_left _ hu)
    have hregular := regular_run respond sources peer hearlier
    obtain ⟨hdistinct, hcapped⟩ := ih hearlier
      (hids.of_prefix fun client => drawn_prefix respond peer (List.prefix_append _ _) huses client)
    rw [run_concat] at hids ⊢
    refine ⟨?_, hregular.capped_step service hcapped fun n w _ hw => hdistinct.isNew hw⟩
    cases use with
    | start client handle call => exact hdistinct.start hregular.continues hids
    | decide n =>
      cases hw : (run respond { sources, peer } uses).underWay[n]? with
      | none =>
        rw [step_decide_of_none hw]
        exact hdistinct
      | some w => exact hdistinct.decide hregular hw (hregular.decide service hcapped hw (hdistinct.isNew hw)).2

/-- Any number of clients use handles of a semaphore on a free key, whose permits are the same and whose times may be
any, and the service decides on their requests in whatever order. If no client draws more than 2³¹ identifiers, and no
two draw the same one, it never decides on an acquire under an identifier that holds the key. And if it never does,
there are never more holders than permits, or than one when there are no permits, an acquire that must be answered at
once is granted exactly when there are fewer, and a release that succeeds frees one place, that of the oldest holder. -/
theorem keeps_permits (service : KeepsSlots respond dbId key holders) (permits : UInt16)
    (sources : Fin clients → IdSource) (peer : τ) (hfree : holders peer = []) (uses : List (Use clients))
    (huses : ∀ use ∈ uses, use.Concerns dbId key permits) :
    ((run respond { sources, peer } uses).KeepsApart sources →
      NeverReenters respond holders { sources, peer } uses) ∧
    (NeverReenters respond holders { sources, peer } uses →
      (∀ before, before <+: uses →
        (holders (run respond { sources, peer } before).peer).length ≤ max permits.toNat 1) ∧
      ∀ before n w, before ++ [.decide n] <+: uses → (run respond { sources, peer } before).underWay[n]? = some w →
        Decided respond holders (max permits.toNat 1) w.2.request (run respond { sources, peer } before)
          (run respond { sources, peer } (before ++ [.decide n]))) := by
  constructor
  · intro hids before n w hb hw
    have hbefore := (List.prefix_append before [.decide n]).trans hb
    refine (distinct_run service hfree (fun u hu => huses u (hbefore.subset hu)) ?_).1.isNew hw
    exact hids.of_prefix fun client => drawn_prefix respond peer hbefore huses client
  · intro hnew
    have hcapped : ∀ before, before <+: uses → Capped permits (holders (run respond { sources, peer } before).peer) :=
      fun before hb => capped_run service hfree (fun u hu => huses u (hb.subset hu))
        fun earlier n w he hw => hnew earlier n w (he.trans hb) hw
    refine ⟨fun before hb => (hcapped before hb).cap, fun before n w hb hw => ?_⟩
    have hbefore := (List.prefix_append before [.decide n]).trans hb
    have hregular := regular_run respond sources peer fun u hu => huses u (hbefore.subset hu)
    rw [run_concat]
    exact (hregular.decide service (hcapped before hbefore) hw (hnew before n w hb hw)).2

end Keeps

/-! ### A run -/

/-- A handle of a semaphore with two permits, whose requests wait as long as told. -/
def pool (timeout : TimeWord) : Semaphore :=
  Database.semaphore { id := 0 } (LockKey.ofBytes [112, 111, 111, 108]) 2 timeout (.seconds 30)

def swimmerIds (client : Fin 2) : IdSource := .seeded (UInt32.ofNat (client * 100)) fun _ => ⟨1700000000000, 5⟩

/-- Two clients acquire slots, one of them with a callback, and the service grants the later one first. A further
acquire that does not wait is refused, and granted after a release. -/
def swimmers : List (Use 2) :=
  [.start 0 (pool (.seconds 4)) .acquire, .start 1 (pool (.seconds 0)) .postAcquire, .decide 1,
    .start 0 (pool (.seconds 0)) .acquire, .decide 0, .decide 0, .start 1 (pool (.seconds 4)) .release, .decide 0,
    .start 0 (pool (.seconds 0)) .acquire, .decide 0]

/-- No more than two slots are held at any time, and the acquire that was refused is granted after the release. -/
theorem third_swimmer_waits_for_release :
    (∀ use ∈ swimmers, use.Concerns 0 (LockKey.ofBytes [112, 111, 111, 108]) 2) ∧
    (run slotKeeper { sources := swimmerIds, peer := [] } swimmers).KeepsApart swimmerIds ∧
    (∀ before, before <+: swimmers →
      (run slotKeeper { sources := swimmerIds, peer := [] } before).peer.length ≤ 2) ∧
    (run slotKeeper { sources := swimmerIds, peer := [] } swimmers).finished.map (·.isOk) =
      [true, true, false, true, true] := by
  have huses : ∀ use ∈ swimmers, use.Concerns 0 (LockKey.ofBytes [112, 111, 111, 108]) 2 := by
    intro use hu
    simp only [swimmers, List.mem_cons, List.not_mem_nil, or_false] at hu
    rcases hu with rfl | rfl | rfl | rfl | rfl | rfl | rfl | rfl | rfl | rfl
    all_goals first | exact ⟨_, _, _, rfl, rfl⟩ | trivial
  have hids : (run slotKeeper { sources := swimmerIds, peer := [] } swimmers).KeepsApart swimmerIds :=
    ⟨by decide +kernel, by decide +kernel⟩
  obtain ⟨hnew, hserves⟩ := keeps_permits (keepsSlots_slotKeeper 0 (LockKey.ofBytes [112, 111, 111, 108])) 2 swimmerIds
    [] rfl swimmers huses
  exact ⟨huses, hids, (hserves (hnew hids)).1, by decide +kernel⟩

end Users

end LockService.Semaphore
