import LockService.Call.Chronicle
import Mathlib.Data.List.Induction

/-!
# What interleaved calls keep to

A call keeps to terms if it sends only requests that fit what it has sent and heard so far, leaves the handle's state
alone in every section but its last, and ends in its last one as the terms say, whatever other calls do in between
(`Call.Keeps`). If all calls do, then every entry of a chronicle is as the terms say, and an event changes the state
only by ending a call (`Chronicle.keeps_run`, `Chronicle.Keeps.played`).
-/

namespace LockService

/-- The requests of a call that have been answered, with the answers. -/
abbrev Exchanges := List (LockRequest × Outcome Reply)

/-- What a call may do. -/
structure Terms (σ α : Type) where
  /-- After these exchanges, the call may send this request. -/
  asks : Exchanges → LockRequest → Prop
  /-- After these exchanges, the call may end with this value in a section that finds the one state and leaves the
  other. -/
  ends : Exchanges → α → σ → σ → Prop

variable {σ α β : Type}

/-! ### One call -/

namespace Call

/-- What is left of a call keeps to terms, after the exchanges in `log` and within a section that found the state
`before` and has come to the state `now`. -/
def Keeps (terms : Terms σ α) : Call σ α → Exchanges → (before now : σ) → Prop
  | done value, log, before, now => terms.ends log value before now
  | look next, log, before, now => (next now).Keeps terms log before now
  | put state next, log, before, _ => next.Keeps terms log before state
  | draw next, log, before, now => ∀ id, (next id).Keeps terms log before now
  | send request next, log, before, now => now = before ∧ terms.asks log request ∧
    ∀ outcome s, (next outcome).Keeps terms (log ++ [(request, outcome)]) s s

private theorem Keeps.mono {terms terms' : Terms σ α}
    (hasks : ∀ log request, terms.asks log request → terms'.asks log request)
    (hends : ∀ log value before now, terms.ends log value before now → terms'.ends log value before now)
    {call : Call σ α} {log : Exchanges} {before now : σ} (h : call.Keeps terms log before now) :
    call.Keeps terms' log before now := by
  induction call generalizing log before now with
  | done _ => exact hends _ _ _ _ h
  | look _ ih => exact ih now h
  | put _ _ ih => exact ih h
  | draw _ ih => exact fun id => ih id (h id)
  | send request _ ih => exact ⟨h.1, hasks _ _ h.2.1, fun outcome s => ih outcome (h.2.2 outcome s)⟩

/-- A call followed by others keeps to terms if it ends so that they do. -/
theorem keeps_bind {terms : Terms σ β} {call : Call σ α} {next : α → Call σ β} {log : Exchanges} {before now : σ} :
    (call >>= next).Keeps terms log before now ↔
      call.Keeps ⟨terms.asks, fun log value before now => (next value).Keeps terms log before now⟩ log before now := by
  show (Call.bind call next).Keeps terms log before now ↔ _
  induction call generalizing log before now with
  | done _ => exact Iff.rfl
  | look _ ih => exact ih now
  | put _ _ ih => exact ih
  | draw _ ih => exact forall_congr' fun id => ih id
  | send _ _ ih => exact and_congr_right fun _ => and_congr_right fun _ => forall_congr' fun outcome =>
      forall_congr' fun s => ih outcome

/-- The same with the terms of the first call. -/
theorem Keeps.bind {terms : Terms σ α} {terms' : Terms σ β} {call : Call σ α} {next : α → Call σ β} {log : Exchanges}
    {before now : σ} (h : call.Keeps terms log before now)
    (hasks : ∀ log request, terms.asks log request → terms'.asks log request)
    (hnext : ∀ log value before now, terms.ends log value before now →
      (next value).Keeps terms' log before now) : (call >>= next).Keeps terms' log before now :=
  keeps_bind.mpr (h.mono hasks hnext)

/-- What a call keeps is kept when its value is turned into another. -/
theorem Keeps.map {terms : Terms σ α} {terms' : Terms σ β} {call : Call σ α} {f : α → β} {log : Exchanges}
    {before now : σ} (h : call.Keeps terms log before now)
    (hasks : ∀ log request, terms.asks log request → terms'.asks log request)
    (hends : ∀ log value before now, terms.ends log value before now → terms'.ends log (f value) before now) :
    (f <$> call).Keeps terms' log before now := by
  rw [← bind_pure_comp]
  exact h.bind hasks hends

end Call

/-- What a section has come to keeps to terms. -/
def Stage.Keeps (terms : Terms σ α) (log : Exchanges) (before after : σ) : Stage σ α → Prop
  | .finished value => terms.ends log value before after
  | .waiting request resume => after = before ∧ terms.asks log request ∧
    ∀ outcome s, (resume outcome).Keeps terms (log ++ [(request, outcome)]) s s

private theorem Call.Keeps.advance {terms : Terms σ α} {call : Call σ α} {log : Exchanges} {before now : σ}
    (h : call.Keeps terms log before now) (ids : IdSource) :
    (call.advance now ids).1.Keeps terms log before (call.advance now ids).2.1 := by
  induction call generalizing now ids with
  | done _ => exact h
  | look _ ih => exact ih now h ids
  | put _ _ ih => exact ih h ids
  | draw _ ih => exact ih _ (h _) ids.advance
  | send _ _ => exact h

/-! ### All calls -/

variable {κ : Type}

namespace Chronicle

/-- An entry is as the terms for its call, with what that found, say. -/
def Entry.Keeps (terms : κ → σ → Terms σ α) (entry : Entry κ σ α) : Prop :=
  ∃ before after, entry.stage.Keeps (terms entry.call entry.found) entry.exchanges before after

variable {perform : κ → Call σ α} {p : Chronicle κ σ α} {event : Event κ} {entry : Entry κ σ α}

def Keeps (terms : κ → σ → Terms σ α) (p : Chronicle κ σ α) : Prop := ∀ entry ∈ p.entries, entry.Keeps terms

/-- An event starts a call, or answers the request that one waits for. -/
theorem turn?_cases {turn : Turn κ σ α} (ht : p.turn? perform event = some turn) :
    (∃ call, event = .start call ∧ turn = ⟨p.entries.length, call, p.state, [], perform call⟩) ∨
    ∃ n outcome call found exchanges request resume, event = .answer n outcome ∧
      p.entries[n]? = some ⟨call, found, exchanges, .waiting request resume⟩ ∧
      turn = ⟨n, call, found, exchanges ++ [(request, outcome)], resume outcome⟩ := by
  cases event with
  | start call =>
    cases ht
    exact .inl ⟨call, rfl, rfl⟩
  | answer n outcome =>
    rw [turn?] at ht
    split at ht
    · next call found exchanges request resume hn =>
      cases ht
      exact .inr ⟨n, outcome, call, found, exchanges, request, resume, rfl, hn, rfl⟩
    · cases ht

private theorem step_of_turn? {turn : Turn κ σ α} (ht : p.turn? perform event = some turn) :
    p.step perform event = p.play turn := by
  rw [step, ht]

/-- A call that is started gets an entry of its own, after the others. -/
theorem step_start {call : κ} {stage : Stage σ α} {s : σ} {ids : IdSource}
    (h : (perform call).advance p.state p.ids = (stage, s, ids)) :
    p.step perform (.start call) = ⟨s, ids, p.entries ++ [⟨call, p.state, [], stage⟩]⟩ := by
  show p.play ⟨p.entries.length, call, p.state, [], perform call⟩ = _
  simp only [play, Turn.entry, h, List.take_length, List.drop_of_length_le (Nat.le_succ _)]

/-- A call that waits goes on with the answer to its request. -/
theorem step_answer {n : Nat} {call : κ} {found : σ} {exchanges : List (LockRequest × Outcome Reply)}
    {request : LockRequest} {resume : Outcome Reply → Call σ α} {outcome : Outcome Reply} {stage : Stage σ α} {s : σ}
    {ids : IdSource} (hn : p.entries[n]? = some ⟨call, found, exchanges, .waiting request resume⟩)
    (h : (resume outcome).advance p.state p.ids = (stage, s, ids)) : p.step perform (.answer n outcome) =
      ⟨s, ids, p.entries.set n ⟨call, found, exchanges ++ [(request, outcome)], stage⟩⟩ := by
  have ht : p.turn? perform (.answer n outcome) =
      some ⟨n, call, found, exchanges ++ [(request, outcome)], resume outcome⟩ := by rw [turn?, hn]
  rw [step_of_turn? ht, List.set_eq_take_append_cons_drop, if_pos (List.getElem?_eq_some_iff.mp hn).1]
  simp only [play, Turn.entry, h]

/-- An event that lets no call go on changes nothing. -/
theorem step_of_played?_eq_none (h : p.played? perform event = none) : p.step perform event = p := by
  rw [step, Option.map_eq_none_iff.mp h]

/-- The entries after an event are those before it, and that of the call that went on. -/
theorem mem_entries_step (he : p.played? perform event = some entry) {other : Entry κ σ α}
    (ho : other ∈ (p.step perform event).entries) : other ∈ p.entries ∨ other = entry := by
  obtain ⟨turn, ht, rfl⟩ := Option.map_eq_some_iff.mp he
  rw [step_of_turn? ht] at ho
  rcases List.mem_append.mp ho with ho | ho
  · exact .inl (List.mem_of_mem_take ho)
  · exact (List.mem_cons.mp ho).symm.imp_left List.mem_of_mem_drop

section Keeps

variable {terms : κ → σ → Terms σ α} (hp : p.Keeps terms)
  (hcalls : ∀ call s, (perform call).Keeps (terms call s) [] s s)
include hp hcalls

/-- The call that goes on with an event keeps to its terms in the section that it runs. -/
theorem Keeps.played (he : p.played? perform event = some entry) : entry.stage.Keeps (terms entry.call entry.found)
    entry.exchanges p.state (p.step perform event).state := by
  obtain ⟨turn, ht, rfl⟩ := Option.map_eq_some_iff.mp he
  rw [step_of_turn? ht]
  obtain ⟨call, rfl, rfl⟩ | ⟨n, outcome, call, found, exchanges, request, resume, rfl, hn, rfl⟩ := turn?_cases ht
  · exact (hcalls call p.state).advance p.ids
  · obtain ⟨before, after, -, -, hresume⟩ := hp _ (List.mem_of_getElem? hn)
    exact (hresume outcome p.state).advance p.ids

private theorem Keeps.step (event : Event κ) : (p.step perform event).Keeps terms := by
  cases he : p.played? perform event with
  | none => rwa [step_of_played?_eq_none he]
  | some entry =>
    have hentry := hp.played hcalls he
    intro other ho
    rcases mem_entries_step he ho with ho | rfl
    · exact hp other ho
    · exact ⟨_, _, hentry⟩

/-- What each call keeps on its own, the calls keep in any interleaving. -/
theorem keeps_run (events : List (Event κ)) : (p.run perform events).Keeps terms := by
  induction events using List.reverseRecOn with
  | nil => exact hp
  | append_singleton events event ih =>
    rw [run_concat]
    exact ih.step hcalls event

end Keeps

/-! ### The entry of one call -/

/-- A call that is started gets the last entry. -/
theorem exists_started (perform : κ → Call σ α) (p : Chronicle κ σ α) (call : κ) : ∃ entry,
    p.played? perform (.start call) = some entry ∧
      (p.step perform (.start call)).entries[p.entries.length]? = some entry ∧
      entry.call = call ∧ entry.found = p.state := by
  refine ⟨_, rfl, ?_, rfl, rfl⟩
  show (p.entries.take p.entries.length ++ _)[p.entries.length]? = _
  rw [List.take_length, List.getElem?_append_right (Nat.le_refl _), Nat.sub_self]
  rfl

/-- An answer lets a call go on that has waited for it, or is for nobody. -/
theorem exists_answered (perform : κ → Call σ α) {n : Nat} (hn : p.entries[n]? = some entry) (outcome : Outcome Reply) :
    p.played? perform (.answer n outcome) = none ∨
    ∃ entry' request resume, p.played? perform (.answer n outcome) = some entry' ∧
      (p.step perform (.answer n outcome)).entries[n]? = some entry' ∧
      entry'.call = entry.call ∧ entry'.found = entry.found ∧ entry.stage = .waiting request resume := by
  cases ht : p.turn? perform (.answer n outcome) with
  | none => exact .inl (Option.map_eq_none_iff.mpr ht)
  | some turn =>
    obtain ⟨_, hstart, -⟩ | ⟨n', outcome', call, found, exchanges, request, resume, heq, hn', rfl⟩ := turn?_cases ht
    · cases hstart
    · cases heq
      cases hn.symm.trans hn'
      refine .inr ⟨_, request, resume, Option.map_eq_some_iff.mpr ⟨_, ht, rfl⟩, ?_, rfl, rfl, rfl⟩
      have hlt := (List.getElem?_eq_some_iff.mp hn).1
      rw [step_of_turn? ht]
      show (p.entries.take n ++ _)[n]? = _
      rw [List.getElem?_append_right (List.length_take_le ..), List.length_take, Nat.min_eq_left (Nat.le_of_lt hlt),
        Nat.sub_self]
      rfl

end Chronicle

end LockService
