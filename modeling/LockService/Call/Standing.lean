import LockService.Call.Script

/-!
# How far a call has come

The answers to the requests of a call come one after the other, and until the next one comes the call stays where it is.
`Call.heed` tells where it stands then and what it has sent. A call that is over comes to the same end when it is run
against a script with these answers (`Call.run_of_heed`).
-/

namespace LockService

/-- Where a call stands, and all that it has sent. -/
structure Standing (σ α : Type) where
  stage : Stage σ α
  sent : List LockRequest

namespace Standing

variable {σ α : Type} {standing : Standing σ α} {stage : Stage σ α} {request : LockRequest} {sent : List LockRequest}

/-- The same after an earlier request. -/
def after (request : LockRequest) (standing : Standing σ α) : Standing σ α :=
  { standing with sent := request :: standing.sent }

def IsOver (standing : Standing σ α) : Prop := ∃ value, standing.stage = .finished value

@[simp] theorem sent_after (request : LockRequest) (standing : Standing σ α) :
    (standing.after request).sent = request :: standing.sent := rfl

@[simp] theorem isOver_after (request : LockRequest) (standing : Standing σ α) :
    (standing.after request).IsOver ↔ standing.IsOver := Iff.rfl

/-- The same has been sent, and if either is over, both have come to the same end. -/
structure Alike (standing other : Standing σ α) : Prop where
  sent : standing.sent = other.sent
  finished_iff : ∀ value, standing.stage = .finished value ↔ other.stage = .finished value

theorem Alike.after {other : Standing σ α} (h : standing.Alike other) (request : LockRequest) :
    (standing.after request).Alike (other.after request) :=
  ⟨congrArg (request :: ·) h.sent, h.finished_iff⟩

theorem exists_of_after_eq (h : standing.after request = ⟨stage, sent⟩) :
    ∃ later, standing = ⟨stage, later⟩ ∧ sent = request :: later := by
  have hstage : standing.stage = stage := congrArg Standing.stage h
  have hsent : request :: standing.sent = sent := congrArg Standing.sent h
  exact ⟨standing.sent, by rw [← hstage], hsent.symm⟩

end Standing

namespace Call

variable {σ α : Type}

/-- Where a call stands when its requests have got some answers, one after the other, and no more. Answers that come
when it is over are for nobody. -/
def heed : Call σ α → σ → IdSource → List (Outcome Reply) → Standing σ α
  | done value, _, _, _ => ⟨.finished value, []⟩
  | look next, s, ids, answers => (next s).heed s ids answers
  | put state next, _, ids, answers => next.heed state ids answers
  | draw next, s, ids, answers => (next ids.upcoming).heed s ids.advance answers
  | send request next, _, _, [] => ⟨.waiting request next, [request]⟩
  | send request next, s, ids, answer :: answers => ((next answer).heed s ids answers).after request

/-- A call that is over after some answers comes to the same end in a run against a script that gives them. -/
theorem run_of_heed {call : Call σ α} {s : σ} {ids : IdSource} {answers : List (Outcome Reply)} {value : α}
    {sent : List LockRequest} {script : Nat → Outcome Reply} (h : call.heed s ids answers = ⟨.finished value, sent⟩)
    (earlier : List LockRequest)
    (hscript : ∀ i answer, answers[i]? = some answer → script (earlier.length + i) = answer) :
    ∃ s' ids', call.run (scripted script) ⟨s, ids, earlier⟩ = (value, ⟨s', ids', earlier ++ sent⟩) := by
  induction call generalizing s ids answers sent earlier with
  | done value =>
    cases h
    exact ⟨s, ids, by rw [List.append_nil]; rfl⟩
  | look next ih => exact ih s h earlier hscript
  | put state next ih => exact ih h earlier hscript
  | draw next ih => exact ih ids.upcoming h earlier hscript
  | send request next ih =>
    cases answers with
    | nil => cases h
    | cons answer answers =>
      obtain ⟨later, hlater, rfl⟩ := Standing.exists_of_after_eq h
      have hfirst : script earlier.length = answer := hscript 0 answer rfl
      have hrest : ∀ i answer', answers[i]? = some answer' →
          script ((earlier ++ [request]).length + i) = answer' := by
        intro i answer' hi
        have hplace : (earlier ++ [request]).length + i = earlier.length + (i + 1) := by
          rw [List.length_append, List.length_singleton]
          omega
        rw [hplace]
        exact hscript (i + 1) answer' hi
      obtain ⟨s', ids', hrun⟩ := ih answer hlater (earlier ++ [request]) hrest
      refine ⟨s', ids', ?_⟩
      rw [run, scripted, hfirst]
      dsimp only
      rw [hrun, List.append_assoc, List.singleton_append]

end Call

end LockService
