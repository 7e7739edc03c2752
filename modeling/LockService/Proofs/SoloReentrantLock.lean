import LockService.Primitive.ReentrantSolo
import LockService.Proofs.SharedReentrantLock
import LockService.Proofs.SoloIds

/-!
# The books of a reentrant lock with a single caller

The depth counts the acquires and the releases that succeed. The calls fall into spells, in which all requests go out
under the identifier drawn by the acquire that begins the spell; between the spells there is no lock in use, and a
release fails at once (`single_caller_keeps_books`).
-/

namespace LockService.ReentrantLock

variable {h : ReentrantLock} {p : Solo State ReentrantCall} {answer : Outcome Reply}

/-! ### One call -/

private theorem step_acquire {lock : Lock} (hl : p.state.lock = some lock) (answer : Outcome Reply) :
    p.step h.attempt .acquire answer = ⟨p.state.afterAcquire answer, p.ids.advance,
      p.past ++ [.asking .acquire answer (lock.requestWith .lock 0 p.ids.upcoming)]⟩ := by
  obtain ⟨resume, ha, ⟨-, hr⟩ | ⟨hk, -⟩⟩ := advance_acquire (h := h) hl p.ids
  · exact Solo.step_of_answered ha (hr answer _ _)
  · cases hk

private theorem step_acquire_of_none (hl : p.state.lock = none) (answer : Outcome Reply) :
    p.step h.attempt .acquire answer =
      ⟨{ p.state with lock := some (h.lockAs p.ids.upcoming) }.afterAcquire answer, p.ids.advance.advance,
        p.past ++ [.asking .acquire answer
          ((h.lockAs p.ids.upcoming).requestWith .lock 0 p.ids.advance.upcoming)]⟩ := by
  obtain ⟨resume, ha, ⟨-, hr⟩ | ⟨hk, -⟩⟩ := advance_acquire_of_none (h := h) hl p.ids
  · exact Solo.step_of_answered ha (hr answer _ _)
  · cases hk

private theorem step_release {lock : Lock} (hl : p.state.lock = some lock) (answer : Outcome Reply) :
    p.step h.attempt .release answer = ⟨p.state.afterRelease answer, p.ids.advance,
      p.past ++ [.asking .release answer (lock.requestWith .unlock 0 p.ids.upcoming)]⟩ := by
  obtain ⟨resume, ha, ⟨hk, -⟩ | ⟨-, hr⟩⟩ := advance_release (h := h) hl p.ids
  · cases hk
  · exact Solo.step_of_answered ha (hr answer _ _)

private theorem step_release_of_none (hl : p.state.lock = none) (answer : Outcome Reply) :
    p.step h.attempt .release answer = { p with past := p.past ++ [.unheld .release answer] } :=
  Solo.step_of_finished (advance_release_of_none (h := h) hl p.ids)

/-! ### The depth -/

private theorem depthOf_concat (past : List (PastCall ReentrantCall)) (m : PastCall ReentrantCall) :
    depthOf (past ++ [m]) = depthAfter (depthOf past) m := by
  rw [depthOf, List.foldl_append]
  rfl

private theorem depthAfter_acquire (depth : Nat) (answer : Outcome Reply) (request : LockRequest) :
    depthAfter depth (.asking .acquire answer request) = if answer.isGrant then depth + 1 else depth := by
  unfold depthAfter PastCall.asking Outcome.isGrant
  cases answer >>= lockOutcome <;> rfl

private theorem depthAfter_release (depth : Nat) (answer : Outcome Reply) (request : LockRequest) :
    depthAfter depth (.asking .release answer request) = if answer.isGrant then depth - 1 else depth := by
  unfold depthAfter PastCall.asking Outcome.isGrant
  cases answer >>= lockOutcome <;> rfl

/-! ### Spells -/

private theorem endsSpell_release {past : List (PastCall ReentrantCall)} {request : LockRequest} :
    EndsSpell past (.asking .release answer request) ↔ answer.isGrant = true ∧ depthOf past - 1 = 0 := by
  constructor
  · rintro ⟨-, hg, hd⟩
    have hg : answer.isGrant = true := hg
    rw [depthOf_concat, depthAfter_release, if_pos hg] at hd
    exact ⟨hg, hd⟩
  · rintro ⟨hg, hd⟩
    refine ⟨rfl, hg, ?_⟩
    rw [depthOf_concat, depthAfter_release, if_pos hg, hd]

private theorem isIdle_nil : IsIdle [] := ⟨[], [], rfl, fun _ hm => absurd hm List.not_mem_nil, .inl rfl⟩

/-- No acquire has been made lately if the last call ended a spell, or was a release when that held already. -/
private theorem isIdle_concat {past : List (PastCall ReentrantCall)} {m : PastCall ReentrantCall} :
    IsIdle (past ++ [m]) ↔ EndsSpell past m ∨ m.call = .release ∧ IsIdle past := by
  constructor
  · rintro ⟨first, idle, heq, hidle, hfirst⟩
    rcases List.eq_nil_or_concat' idle with rfl | ⟨idle, last, rfl⟩
    · rw [List.append_nil] at heq
      obtain rfl | ⟨before, last, rfl, hends⟩ := hfirst
      · cases List.append_ne_nil_of_right_ne_nil past (List.cons_ne_nil m []) heq
      · obtain ⟨rfl, hlast⟩ := List.append_inj' heq rfl
        cases hlast
        exact .inl hends
    · rw [← List.append_assoc] at heq
      obtain ⟨rfl, hlast⟩ := List.append_inj' heq rfl
      cases hlast
      exact .inr ⟨hidle _ (List.mem_append_right _ List.mem_cons_self), first, idle, rfl,
        fun m hm => hidle m (List.mem_append_left _ hm), hfirst⟩
  · rintro (hends | ⟨hm, first, idle, rfl, hidle, hfirst⟩)
    · exact ⟨past ++ [m], [], (List.append_nil _).symm, fun _ hm => absurd hm List.not_mem_nil,
        .inr ⟨past, m, rfl, hends⟩⟩
    · refine ⟨first, idle ++ [m], List.append_assoc .., fun m' hm' => ?_, hfirst⟩
      rcases List.mem_append.mp hm' with hm' | hm'
      · exact hidle m' hm'
      · rwa [List.mem_singleton.mp hm']

/-- A spell without its last call is one too, unless it is empty, and its last call does not end it. -/
private theorem IsSpell.of_concat {before spell : List (PastCall ReentrantCall)} {m : PastCall ReentrantCall}
    (hs : IsSpell before (spell ++ [m])) (hne : spell ≠ []) :
    IsSpell before spell ∧ ∀ first last, spell = first ++ [last] → ¬ EndsSpell (before ++ first) last := by
  have hgoesOn : ∀ first last, first ++ [last] <+: spell → ¬ EndsSpell (before ++ first) last := by
    intro first last hpre
    have hle := hpre.length_le
    rw [List.length_append, List.length_singleton] at hle
    refine hs.goesOn first last (hpre.trans (List.prefix_append _ _)) ?_
    rw [List.length_append, List.length_singleton]
    omega
  refine ⟨⟨?_, fun first last hpre _ => hgoesOn first last hpre⟩,
    fun first last heq => hgoesOn first last (heq ▸ List.prefix_refl _)⟩
  rw [← hs.begins, List.head?_append_of_ne_nil _ hne]

/-! ### What every call keeps -/

/-- The identifier of the lock in use. -/
def State.heldIds (s : State) : List Ident := (s.lock.map (·.id)).toList

private theorem State.mem_heldIds {s : State} {id : Ident} : id ∈ s.heldIds ↔ ∃ lock ∈ s.lock, lock.id = id := by
  simp [heldIds]

structure Regular (ids : IdSource) (p : Solo State ReentrantCall) : Prop where
  depth : p.state.depth = depthOf p.past
  bound : ids.drawn + p.state.depth ≤ p.ids.drawn
  held : 0 < p.state.depth → p.state.lock ≠ none
  idle : p.state.lock = none ↔ IsIdle p.past
  draws : p.Draws State.heldIds ids

private theorem regular_alone (ids : IdSource) : Regular ids (alone ids) where
  depth := rfl
  bound := Nat.le_refl _
  held hpos := absurd hpos (Nat.lt_irrefl 0)
  idle := iff_of_true rfl isIdle_nil
  draws := ⟨⟨0, rfl⟩, fun _ hid => absurd hid List.not_mem_nil, fun _ hm => absurd hm List.not_mem_nil⟩

private theorem not_isIdle_acquire {past : List (PastCall ReentrantCall)} {request : LockRequest} :
    ¬ IsIdle (past ++ [.asking .acquire answer request]) := by
  rw [isIdle_concat]
  rintro (⟨hk, -, -⟩ | ⟨hk, -⟩) <;> cases hk

namespace Regular

variable {ids : IdSource}

/-- An acquire keeps the books regular: it asks for the lock in use, or for one that it makes. -/
private theorem acquire (hp : Regular ids p) (answer : Outcome Reply) :
    Regular ids (p.step h.attempt .acquire answer) := by
  have hle := hp.bound
  cases hl : p.state.lock with
  | some lock =>
    have hdepth := p.state.depth_afterAcquire_le answer
    rw [step_acquire hl]
    refine ⟨?_, ?_, fun _ => ?_, iff_of_false ?_ not_isIdle_acquire,
      hp.draws.again _ _ (fun id hid => ?_) (State.mem_heldIds.mpr ⟨lock, hl, rfl⟩) rfl⟩
    · rw [State.depth_afterAcquire, hp.depth, depthOf_concat, depthAfter_acquire]
    · show ids.drawn + (p.state.afterAcquire answer).depth ≤ p.ids.drawn + 1
      omega
    · simp [hl]
    · simp [hl]
    · simpa only [State.heldIds, State.lock_afterAcquire] using hid
  | none =>
    let s : State := { p.state with lock := some (h.lockAs p.ids.upcoming) }
    have hdepth : (s.afterAcquire answer).depth ≤ p.state.depth + 1 := s.depth_afterAcquire_le answer
    rw [step_acquire_of_none hl]
    refine ⟨?_, ?_, fun _ => ?_, iff_of_false ?_ not_isIdle_acquire,
      hp.draws.anew _ _ (fun id hid => .inr ?_) rfl rfl⟩
    · rw [State.depth_afterAcquire, depthOf_concat, depthAfter_acquire, ← hp.depth]
    · show ids.drawn + (s.afterAcquire answer).depth ≤ p.ids.drawn + 1 + 1
      omega
    · simp
    · simp
    · rw [State.mem_heldIds, State.lock_afterAcquire] at hid
      obtain ⟨lock, hlock, rfl⟩ := hid
      cases hlock
      rfl

/-- A release keeps the books regular: it gives the lock in use back once, or finds none. -/
private theorem release (hp : Regular ids p) (answer : Outcome Reply) :
    Regular ids (p.step h.attempt .release answer) := by
  have hle := hp.bound
  cases hl : p.state.lock with
  | some lock =>
    have hidle : ¬ IsIdle p.past := fun hi => by simp [hp.idle.mpr hi] at hl
    have hdepth := p.state.depth_afterRelease_le answer
    rw [step_release hl]
    refine ⟨?_, ?_, ?_, ?_, hp.draws.again _ _ (fun id hid => ?_) (State.mem_heldIds.mpr ⟨lock, hl, rfl⟩) rfl⟩
    · rw [State.depth_afterRelease, depthOf_concat, depthAfter_release, ← hp.depth]
    · show ids.drawn + (p.state.afterRelease answer).depth ≤ p.ids.drawn + 1
      omega
    · rw [State.depth_afterRelease, State.lock_afterRelease]
      intro hpos
      split
      · next hends =>
        rw [if_pos hends.1, hends.2] at hpos
        cases hpos
      · simp [hl]
    · rw [isIdle_concat, endsSpell_release, ← hp.depth, State.lock_afterRelease, or_iff_left fun hi => hidle hi.2]
      split <;> simp [*]
    · rw [State.heldIds, State.lock_afterRelease] at hid
      split at hid
      · cases hid
      · exact hid
  | none =>
    rw [step_release_of_none hl]
    refine ⟨?_, hle, hp.held, iff_of_true hl ?_, hp.draws.unheld _ _⟩
    · rw [depthOf_concat, hp.depth]
      rfl
    · exact isIdle_concat.mpr (.inr ⟨rfl, hp.idle.mp hl⟩)

private theorem step (hp : Regular ids p) (call : ReentrantCall) (answer : Outcome Reply) :
    Regular ids (p.step h.attempt call answer) :=
  match call with
  | .acquire => hp.acquire answer
  | .release => hp.release answer

end Regular

/-- Whatever calls are made, and however they are answered, the books stay regular. -/
theorem Regular.run {ids : IdSource} (hp : Regular ids p) (calls : List (ReentrantCall × Outcome Reply)) :
    Regular ids (p.run h.attempt calls) :=
  Solo.keeps_run (fun _ call answer hq => hq.step call answer) hp calls

/-! ### What goes out in a spell -/

/-- A call sent one request, under an identifier and for the handle's key. -/
def SendsUnder (h : ReentrantLock) (id : Ident) (m : PastCall ReentrantCall) : Prop :=
  ∃ request, m.sent = [request] ∧ request.lockId = id ∧ request.lockKey = h.key ∧ request.reentry = fullReentry

/-- While a lock is in use, a call sends under its identifier, and the lock stays in use unless the call ends a spell. -/
private theorem exists_sendsUnder {id : Ident} (hlock : p.state.lock = some (h.lockAs id))
    (hdepth : p.state.depth = depthOf p.past) (call : ReentrantCall) (answer : Outcome Reply) :
    ∃ m, (p.step h.attempt call answer).past = p.past ++ [m] ∧ SendsUnder h id m ∧
      (¬ EndsSpell p.past m → (p.step h.attempt call answer).state.lock = some (h.lockAs id)) := by
  cases call with
  | acquire =>
    rw [step_acquire hlock]
    exact ⟨_, rfl, ⟨_, rfl, rfl, rfl, rfl⟩, fun _ => by rw [State.lock_afterAcquire, hlock]⟩
  | release =>
    rw [step_release hlock]
    refine ⟨_, rfl, ⟨_, rfl, rfl, rfl, rfl⟩, fun hends => ?_⟩
    rw [endsSpell_release, ← hdepth] at hends
    rw [State.lock_afterRelease, if_neg hends, hlock]

/-- If no lock is in use, the calls of the next spell all send under the next identifier, and the lock stays in use
unless the last of them ends the spell. -/
theorem Regular.sendsUnder_of_isSpell {ids : IdSource} (hp : Regular ids p) (hl : p.state.lock = none)
    (calls : List (ReentrantCall × Outcome Reply)) {spell : List (PastCall ReentrantCall)}
    (hpast : (p.run h.attempt calls).past = p.past ++ spell) (hs : IsSpell p.past spell) :
    (∀ m ∈ spell, SendsUnder h p.ids.upcoming m) ∧
    ((∀ first last, spell = first ++ [last] → ¬ EndsSpell (p.past ++ first) last) →
      (p.run h.attempt calls).state.lock = some (h.lockAs p.ids.upcoming)) := by
  induction calls using List.reverseRecOn generalizing spell with
  | nil =>
    obtain rfl : spell = [] := List.append_right_eq_self.mp hpast.symm
    cases hs.begins
  | append_singleton calls call ih =>
    obtain ⟨call, answer⟩ := call
    obtain ⟨before, hbefore, hlength⟩ := p.exists_past_run h.attempt calls
    rw [Solo.run_concat] at hpast ⊢
    by_cases hne : before = []
    · -- the spell begins with this call
      obtain rfl : calls = [] := List.eq_nil_of_length_eq_zero (by rw [← hlength, hne]; rfl)
      rw [Solo.run_nil] at hpast ⊢
      cases call with
      | acquire =>
        rw [step_acquire_of_none hl] at hpast ⊢
        obtain rfl := List.append_cancel_left hpast
        refine ⟨fun m hm => ?_, fun _ => State.lock_afterAcquire ..⟩
        rw [List.mem_singleton.mp hm]
        exact ⟨_, rfl, rfl, rfl, rfl⟩
      | release =>
        rw [step_release_of_none hl] at hpast
        obtain rfl := List.append_cancel_left hpast
        cases hs.begins
    · -- the spell has gone on up to here, so its lock is still in use
      obtain ⟨m, hm⟩ : ∃ m, ((p.run h.attempt calls).step h.attempt call answer).past =
        (p.run h.attempt calls).past ++ [m] := ⟨_, rfl⟩
      obtain rfl : before ++ [m] = spell := by
        rw [hm, hbefore, List.append_assoc] at hpast
        exact List.append_cancel_left hpast
      obtain ⟨hshorter, hlast⟩ := hs.of_concat hne
      obtain ⟨hsent, hlock⟩ := ih hbefore hshorter
      obtain ⟨m', hm', hsend, hkeep⟩ := exists_sendsUnder (hlock hlast) (hp.run calls).depth call answer
      cases List.append_cancel_left (hm.symm.trans hm')
      refine ⟨fun m' hm' => ?_, fun hends => hkeep (hbefore ▸ hends before m rfl)⟩
      rcases List.mem_append.mp hm' with hm' | hm'
      · exact hsent m' hm'
      · exact List.mem_singleton.mp hm' ▸ hsend

/-! ### The books -/

/-- What holds of a handle whose source of identifiers was `ids` when it was new. -/
structure KeepsBooks (h : ReentrantLock) (ids : IdSource) (p : Solo State ReentrantCall) : Prop where
  depth : p.state.depth = depthOf p.past
  /-- An identifier was drawn for each unit of the depth, so that a word of 32 bits holds it as long as fewer than 2³²
  have been drawn. -/
  bound : p.state.depth ≤ p.ids.drawn - ids.drawn
  /-- While the depth is not zero, there is a lock in use. -/
  held : 0 < p.state.depth → p.state.lock ≠ none
  /-- There is a lock in use from the first acquire of a spell to the release that ends it. -/
  idle : p.state.lock = none ↔ IsIdle p.past
  /-- Without a lock in use, a release fails, sends nothing and changes nothing. -/
  unheld : p.state.lock = none → ∀ answer,
    p.step h.attempt .release answer = { p with past := p.past ++ [.unheld .release answer] }
  /-- All requests of a spell go out under the identifier that is drawn next when it begins. -/
  spell : p.state.lock = none → ∀ calls spell, (p.run h.attempt calls).past = p.past ++ spell →
    IsSpell p.past spell → ∀ m ∈ spell, SendsUnder h p.ids.upcoming m
  /-- All identifiers in requests have been drawn. -/
  sent : ∀ m ∈ p.past, ∀ request ∈ m.sent,
    request.lockId ∈ p.earlier ids ∧ request.requestId ∈ p.earlier ids
  /-- The identifier that is drawn next differs from all that have been drawn. -/
  fresh : p.ids.drawn - ids.drawn < 2147483648 → p.ids.upcoming ∉ p.earlier ids

/-- A single caller's acquires and releases, however they are answered, keep the books of the handle. -/
theorem single_caller_keeps_books (h : ReentrantLock) (ids : IdSource)
    (calls : List (ReentrantCall × Outcome Reply)) : KeepsBooks h ids ((alone ids).run h.attempt calls) :=
  have hp := (regular_alone ids).run (h := h) calls
  { depth := hp.depth
    bound := Nat.le_sub_of_add_le' hp.bound
    held := hp.held
    idle := hp.idle
    unheld := step_release_of_none
    spell := fun hl calls _ hpast hs => (hp.sendsUnder_of_isSpell hl calls hpast hs).1
    sent := hp.draws.sent
    fresh := hp.draws.upcoming_not_mem }

/-- The key is held. -/
def refusal : Outcome Reply := .ok (.lock { (default : LockReply) with result := ResultCode.locked })

/-- An acquire that is refused, one that is granted, and a release. -/
def firstSpell : List (ReentrantCall × Outcome Reply) :=
  [(.acquire, refusal), (.acquire, Shared.success), (.release, Shared.success)]

/-- Two nested acquires, a release that gets no answer, and two that succeed. -/
def secondSpell : List (ReentrantCall × Outcome Reply) :=
  [(.acquire, Shared.success), (.acquire, Shared.success), (.release, .error .connectionClosed),
    (.release, Shared.success), (.release, Shared.success)]

/-- A new handle after the first spell. -/
def afterFirst : Solo State ReentrantCall := (alone Shared.zeroSeeded).run Shared.zeroKeyed.attempt firstSpell

/-- The second spell has an identifier of its own. -/
theorem secondSpell_sends_under_own_id : afterFirst.state.lock = none ∧
    (∀ m ∈ (afterFirst.run Shared.zeroKeyed.attempt secondSpell).past.drop 3,
      SendsUnder Shared.zeroKeyed afterFirst.ids.upcoming m) ∧
    (∀ m ∈ afterFirst.past, ∀ request ∈ m.sent, request.lockId ≠ afterFirst.ids.upcoming) := by
  have hbooks := single_caller_keeps_books Shared.zeroKeyed Shared.zeroSeeded firstSpell
  refine ⟨rfl, ?_, fun m hm request hr he => ?_⟩
  · exact hbooks.spell rfl secondSpell _ rfl ⟨rfl, forall_of_positions (by decide +kernel)⟩
  · exact hbooks.fresh (by decide +kernel) (he ▸ (hbooks.sent m hm request hr).1)

end LockService.ReentrantLock
