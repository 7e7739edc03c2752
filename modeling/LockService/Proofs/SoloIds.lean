import LockService.Call.Solo
import LockService.Proofs.Idents

/-!
# The identifiers that a single caller sees

Each call of a single caller draws what identifiers it needs from the handle's source. What has been drawn is then a
first part of what the source has to give, the identifiers in the handle's state and in its requests are among it, and
the next identifier is not, for the first 2³¹ draws (`Solo.Draws.upcoming_not_mem`).
-/

namespace LockService.Solo

variable {σ κ : Type}

/-- The identifiers that a state and the requests of the calls so far contain were drawn from a source. -/
structure Draws (held : σ → List Ident) (ids : IdSource) (p : Solo σ κ) : Prop where
  source : ∃ k, p.ids = IdSource.advance^[k] ids
  held : ∀ id ∈ held p.state, id ∈ p.earlier ids
  sent : ∀ m ∈ p.past, ∀ request ∈ m.sent, request.lockId ∈ p.earlier ids ∧ request.requestId ∈ p.earlier ids

variable {held : σ → List Ident} {ids : IdSource} {p : Solo σ κ}

/-- After `n` further draws, what has been drawn has grown by what they give. -/
private theorem earlier_advance (hp : ∃ k, p.ids = IdSource.advance^[k] ids) (n : Nat) (state : σ)
    (past : List (PastCall κ)) : earlier ids ⟨state, IdSource.advance^[n] p.ids, past⟩ =
      p.earlier ids ++ p.ids.take n := by
  obtain ⟨k, hk⟩ := hp
  have hold : p.ids.drawn - ids.drawn = k := by rw [hk, IdSource.drawn_iterate, Nat.add_sub_cancel_left]
  have hnew : (IdSource.advance^[n] p.ids).drawn - ids.drawn = k + n := by
    rw [IdSource.drawn_iterate]
    rw [hk, IdSource.drawn_iterate]
    omega
  rw [earlier, earlier, hnew, hold, IdSource.take_add, ← hk]

/-- A call that draws `n` identifiers leaves in the state and puts in its requests only those that were there before or
that it draws. -/
theorem Draws.extend (hp : p.Draws held ids) (n : Nat) {state : σ} {m : PastCall κ}
    (hstate : ∀ id ∈ held state, id ∈ held p.state ∨ id ∈ p.ids.take n)
    (hsent : ∀ request ∈ m.sent, (request.lockId ∈ held p.state ∨ request.lockId ∈ p.ids.take n) ∧
      request.requestId ∈ p.ids.take n) :
    Draws held ids ⟨state, IdSource.advance^[n] p.ids, p.past ++ [m]⟩ := by
  have hearlier := earlier_advance hp.source n state (p.past ++ [m])
  have hgrow : ∀ {id}, id ∈ p.earlier ids → id ∈ earlier ids ⟨state, IdSource.advance^[n] p.ids, p.past ++ [m]⟩ :=
    fun hid => hearlier ▸ List.mem_append_left _ hid
  have hdrawn : ∀ {id}, id ∈ p.ids.take n → id ∈ earlier ids ⟨state, IdSource.advance^[n] p.ids, p.past ++ [m]⟩ :=
    fun hid => hearlier ▸ List.mem_append_right _ hid
  refine ⟨?_, fun id hid => (hstate id hid).elim (fun h => hgrow (hp.held id h)) hdrawn, fun m' hm' request hr => ?_⟩
  · obtain ⟨k, hk⟩ := hp.source
    exact ⟨n + k, by rw [Function.iterate_add_apply, ← hk]⟩
  · rcases List.mem_append.mp hm' with hm' | hm'
    · exact (hp.sent m' hm' request hr).imp hgrow hgrow
    · cases List.mem_singleton.mp hm'
      exact (hsent request hr).imp (fun h => h.elim (fun h => hgrow (hp.held _ h)) hdrawn) hdrawn

section

variable (hp : p.Draws held ids) {state : σ} {request : LockRequest} (call : κ) (answer : Outcome Reply)
include hp

/-- A call that finds nothing to give back draws nothing. -/
theorem Draws.unheld : Draws held ids { p with past := p.past ++ [.unheld call answer] } :=
  hp.extend 0 (fun _ hid => .inl hid) fun _ hr => absurd hr List.not_mem_nil

/-- A call that asks again for a lock draws an identifier for its request. -/
theorem Draws.again (hstate : ∀ id ∈ held state, id ∈ held p.state) (hlock : request.lockId ∈ held p.state)
    (hrequest : request.requestId = p.ids.upcoming) :
    Draws held ids ⟨state, p.ids.advance, p.past ++ [.asking call answer request]⟩ := by
  refine hp.extend 1 (fun id hid => .inl (hstate id hid)) fun request' hr => ?_
  cases List.mem_singleton.mp hr
  exact ⟨.inl hlock, List.mem_singleton.mpr hrequest⟩

/-- A call that asks for a new lock draws two identifiers. -/
theorem Draws.anew (hstate : ∀ id ∈ held state, id ∈ held p.state ∨ id = p.ids.upcoming)
    (hlock : request.lockId = p.ids.upcoming) (hrequest : request.requestId = p.ids.advance.upcoming) :
    Draws held ids ⟨state, p.ids.advance.advance, p.past ++ [.asking call answer request]⟩ := by
  refine hp.extend 2 (fun id hid => ?_) fun request' hr => ?_
  · rcases hstate id hid with hid | rfl
    · exact .inl hid
    · exact .inr List.mem_cons_self
  · cases List.mem_singleton.mp hr
    exact ⟨.inr (hlock ▸ List.mem_cons_self), hrequest ▸ List.mem_cons_of_mem _ List.mem_cons_self⟩

end

/-- As long as the counter has not come round, the next identifier differs from all that have been drawn. -/
theorem Draws.upcoming_not_mem (hp : p.Draws held ids) (h : p.ids.drawn - ids.drawn < 2147483648) :
    p.ids.upcoming ∉ p.earlier ids := by
  obtain ⟨k, hk⟩ := hp.source
  rw [hk, IdSource.drawn_iterate, Nat.add_sub_cancel_left] at h
  rw [earlier, hk, IdSource.drawn_iterate, Nat.add_sub_cancel_left]
  exact IdSource.upcoming_not_mem_take h ids

end LockService.Solo
