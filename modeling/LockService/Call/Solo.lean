import LockService.Primitive.Lock

/-!
# Calls one after the other

A single caller uses a handle, one call at a time. Each call comes with the outcome that its request gets if it sends
one, and the calls that are over are kept, with what they sent and what they returned.
-/

namespace LockService

/-- Every request gets the same outcome, and all are kept. -/
def answering (outcome : Outcome Reply) : Responder (List LockRequest) := fun sent request =>
  (outcome, sent ++ [request])

namespace Call

variable {σ τ α : Type} {respond : Responder τ} {call : Call σ α} {s s' : σ} {ids ids' : IdSource}

/-- A call that sends nothing runs to its end in one section. -/
theorem run_of_finished {value : α} (h : call.advance s ids = (.finished value, s', ids')) (peer : τ) :
    call.run respond ⟨s, ids, peer⟩ = (value, ⟨s', ids', peer⟩) := by
  induction call generalizing s ids with
  | done value =>
    cases h
    rfl
  | look _ ih => exact ih s h
  | put _ _ ih => exact ih h
  | draw _ ih => exact ih ids.upcoming h
  | send _ _ => cases h

/-- After its first section, a call runs on with the outcome of its request. -/
theorem run_of_waiting {request : LockRequest} {resume : Outcome Reply → Call σ α}
    (h : call.advance s ids = (.waiting request resume, s', ids')) (peer : τ) : call.run respond ⟨s, ids, peer⟩ =
      (resume (respond peer request).1).run respond ⟨s', ids', (respond peer request).2⟩ := by
  induction call generalizing s ids with
  | done _ => cases h
  | look _ ih => exact ih s h
  | put _ _ ih => exact ih h
  | draw _ ih => exact ih ids.upcoming h
  | send _ _ =>
    cases h
    rfl

end Call

/-- A call that is over. -/
structure PastCall (κ : Type) where
  call : κ
  /-- The outcome that its request got, if it sent one. -/
  answer : Outcome Reply
  sent : List LockRequest
  returned : Outcome LockReply

namespace PastCall

variable {κ : Type}

/-- A call that sent one request and returned what its answer says. -/
def asking (call : κ) (answer : Outcome Reply) (request : LockRequest) : PastCall κ :=
  ⟨call, answer, [request], answer >>= lockOutcome⟩

/-- A call that found nothing to give back. -/
def unheld (call : κ) (answer : Outcome Reply) : PastCall κ := ⟨call, answer, [], .error .notHeld⟩

section

variable (call : κ) (answer : Outcome Reply) (request : LockRequest)

@[simp] theorem call_asking : (asking call answer request).call = call := rfl
@[simp] theorem answer_asking : (asking call answer request).answer = answer := rfl
@[simp] theorem sent_asking : (asking call answer request).sent = [request] := rfl
@[simp] theorem call_unheld : (unheld call answer).call = call := rfl
@[simp] theorem sent_unheld : (unheld call answer).sent = [] := rfl

end

end PastCall

/-- A handle with a single caller. -/
structure Solo (σ κ : Type) where
  state : σ
  ids : IdSource
  /-- The calls that are over, in order. -/
  past : List (PastCall κ) := []

namespace Solo

variable {σ κ : Type} {attempt : κ → Attempt σ LockReply}

/-- The identifiers drawn since the source of identifiers was a given one. -/
def earlier (ids : IdSource) (p : Solo σ κ) : List Ident := ids.take (p.ids.drawn - ids.drawn)

/-- Makes a call. -/
def step (attempt : κ → Attempt σ LockReply) (p : Solo σ κ) (call : κ) (answer : Outcome Reply) : Solo σ κ :=
  let (returned, scene) := (attempt call).outcome.run (answering answer) ⟨p.state, p.ids, []⟩
  { state := scene.state, ids := scene.ids, past := p.past ++ [⟨call, answer, scene.peer, returned⟩] }

/-- Makes calls one after the other. -/
def run (attempt : κ → Attempt σ LockReply) (p : Solo σ κ) (calls : List (κ × Outcome Reply)) : Solo σ κ :=
  calls.foldl (fun p call => p.step attempt call.1 call.2) p

@[simp] theorem run_nil (p : Solo σ κ) : p.run attempt [] = p := rfl

@[simp] theorem run_cons (p : Solo σ κ) (call : κ) (answer : Outcome Reply) (calls : List (κ × Outcome Reply)) :
    p.run attempt ((call, answer) :: calls) = (p.step attempt call answer).run attempt calls := rfl

theorem run_concat (p : Solo σ κ) (calls : List (κ × Outcome Reply)) (call : κ) (answer : Outcome Reply) :
    p.run attempt (calls ++ [(call, answer)]) = (p.run attempt calls).step attempt call answer := by
  simp only [run, List.foldl_append, List.foldl_cons, List.foldl_nil]

/-- A call that sends nothing is over at once. -/
theorem step_of_finished {p : Solo σ κ} {call : κ} {answer : Outcome Reply} {returned : Outcome LockReply} {state : σ}
    {ids : IdSource} (h : (attempt call).outcome.advance p.state p.ids = (.finished returned, state, ids)) :
    p.step attempt call answer = ⟨state, ids, p.past ++ [⟨call, answer, [], returned⟩]⟩ := by
  rw [step, Call.run_of_finished h]

/-- A call that sends one request goes on with the answer. -/
theorem step_of_answered {p : Solo σ κ} {call : κ} {answer : Outcome Reply} {request : LockRequest}
    {resume : Outcome Reply → Call σ (Outcome LockReply)} {returned : Outcome LockReply} {state state' : σ}
    {ids ids' : IdSource}
    (h : (attempt call).outcome.advance p.state p.ids = (.waiting request resume, state, ids))
    (hr : (resume answer).advance state ids = (.finished returned, state', ids')) :
    p.step attempt call answer = ⟨state', ids', p.past ++ [⟨call, answer, [request], returned⟩]⟩ := by
  rw [step, Call.run_of_waiting h, answering, Call.run_of_finished hr]
  rfl

/-- What each call keeps holds after any calls. -/
theorem keeps_run {P : Solo σ κ → Prop} (h : ∀ p call answer, P p → P (p.step attempt call answer)) {p : Solo σ κ}
    (hp : P p) (calls : List (κ × Outcome Reply)) : P (p.run attempt calls) := by
  induction calls generalizing p with
  | nil => exact hp
  | cons call calls ih => exact ih (h p call.1 call.2 hp)

/-- Every call is kept, after those before it. -/
theorem exists_past_run (attempt : κ → Attempt σ LockReply) (p : Solo σ κ) (calls : List (κ × Outcome Reply)) :
    ∃ later, (p.run attempt calls).past = p.past ++ later ∧ later.length = calls.length := by
  induction calls generalizing p with
  | nil => exact ⟨[], (List.append_nil _).symm, rfl⟩
  | cons call calls ih =>
    obtain ⟨later, hpast, hlength⟩ := ih (p.step attempt call.1 call.2)
    obtain ⟨m, hm⟩ : ∃ m, (p.step attempt call.1 call.2).past = p.past ++ [m] := ⟨_, rfl⟩
    refine ⟨m :: later, ?_, congrArg (· + 1) hlength⟩
    rw [run_cons, hpast, hm, List.append_assoc, List.singleton_append]

end Solo

end LockService
