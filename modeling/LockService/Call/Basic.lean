import LockService.Failure

/-!
# Calls

A call on a handle is a sequence of sections. Within a section it looks at and changes the handle's state and draws
fresh identifiers, and no other call comes between; a section ends when the call sends a request, and the next one
starts with the answer. `Call.advance` runs one section, which is what interleaved calls are made of, and `Call.run`
runs a call to its end against a responder. Calls form a monad, and `run_bind` says that runs follow it.
-/

namespace LockService

/-- A call on a handle with state `σ` that returns a value of type `α`. -/
inductive Call (σ α : Type) : Type where
  /-- The call is over. -/
  | done (value : α)
  /-- Looks at the handle's state. -/
  | look (next : σ → Call σ α)
  /-- Replaces the handle's state. -/
  | put (state : σ) (next : Call σ α)
  | draw (next : Ident → Call σ α)
  | send (request : LockRequest) (next : Outcome Reply → Call σ α)

namespace Call

variable {σ α β : Type}

/-- One call after another. -/
def bind (c : Call σ α) (f : α → Call σ β) : Call σ β :=
  match c with
  | done value => f value
  | look next => look fun s => (next s).bind f
  | put state next => put state (next.bind f)
  | draw next => draw fun id => (next id).bind f
  | send request next => send request fun outcome => (next outcome).bind f

instance : Monad (Call σ) where
  pure := done
  bind := bind

def state : Call σ σ := look done

def fresh : Call σ Ident := draw done

def request (r : LockRequest) : Call σ (Outcome Reply) := send r done

instance : MonadStateOf σ (Call σ) where
  get := state
  set s := put s (done ())
  modifyGet f := look fun s => put (f s).2 (done (f s).1)

private theorem bind_done (c : Call σ α) : c.bind done = c := by
  induction c with
  | done _ => rfl
  | look _ ih => exact congrArg look (funext ih)
  | put s _ ih => exact congrArg (put s) ih
  | draw _ ih => exact congrArg draw (funext ih)
  | send r _ ih => exact congrArg (send r) (funext ih)

private theorem bind_bind {γ : Type} (c : Call σ α) (f : α → Call σ β) (g : β → Call σ γ) :
    (c.bind f).bind g = c.bind fun a => (f a).bind g := by
  induction c with
  | done _ => rfl
  | look _ ih => exact congrArg look (funext ih)
  | put s _ ih => exact congrArg (put s) ih
  | draw _ ih => exact congrArg draw (funext ih)
  | send r _ ih => exact congrArg (send r) (funext ih)

instance : LawfulMonad (Call σ) :=
  LawfulMonad.mk' _ (fun c => bind_done c) (fun _ _ => rfl) (fun c f g => bind_bind c f g)

end Call

/-- What a call runs in: the handle's state, the source of identifiers and the other side. -/
@[ext] structure Scene (σ τ : Type) where
  state : σ
  ids : IdSource
  peer : τ

/-- The other side: how it answers a request, and how answering changes it. -/
abbrev Responder (τ : Type) := τ → LockRequest → Outcome Reply × τ

/-- Where a call stands at the end of a section. -/
inductive Stage (σ α : Type) : Type where
  /-- The call is over. -/
  | finished (value : α)
  /-- A request is under way, and the call goes on with its outcome. -/
  | waiting (request : LockRequest) (resume : Outcome Reply → Call σ α)

namespace Call

variable {σ τ α β : Type}

/-- Runs a call up to the end of its section. -/
def advance : Call σ α → σ → IdSource → Stage σ α × σ × IdSource
  | done value, s, ids => (.finished value, s, ids)
  | look next, s, ids => (next s).advance s ids
  | put state next, _, ids => next.advance state ids
  | draw next, s, ids => (next ids.upcoming).advance s ids.advance
  | send request next, s, ids => (.waiting request next, s, ids)

/-- A call on a part of a larger state, of which `read` takes the part and `write` puts it back. -/
def within (read : τ → σ) (write : σ → τ → τ) : Call σ α → Call τ α
  | done value => done value
  | look next => look fun whole => (next (read whole)).within read write
  | put part next => look fun whole => put (write part whole) (next.within read write)
  | draw next => draw fun id => (next id).within read write
  | send request next => send request fun outcome => (next outcome).within read write

/-- Runs a call to its end. -/
def run (respond : Responder τ) : Call σ α → Scene σ τ → α × Scene σ τ
  | done value, scene => (value, scene)
  | look next, scene => (next scene.state).run respond scene
  | put state next, scene => next.run respond { scene with state }
  | draw next, scene => (next scene.ids.upcoming).run respond { scene with ids := scene.ids.advance }
  | send request next, scene =>
    let (outcome, peer) := respond scene.peer request
    (next outcome).run respond { scene with peer }

theorem run_bind (respond : Responder τ) (c : Call σ α) (f : α → Call σ β) (scene : Scene σ τ) :
    (c >>= f).run respond scene = (f (c.run respond scene).1).run respond (c.run respond scene).2 := by
  show (bind c f).run respond scene = _
  induction c generalizing scene with
  | done _ => rfl
  | look _ ih => exact ih _ _
  | put _ _ ih => exact ih _
  | draw _ ih => exact ih _ _
  | send _ _ ih => exact ih _ _

@[simp] theorem run_pure (respond : Responder τ) (value : α) (scene : Scene σ τ) :
    (pure value : Call σ α).run respond scene = (value, scene) := rfl

end Call

/-- A call that may fail. -/
abbrev Attempt (σ : Type) := ExceptT Failure (Call σ)

namespace Attempt

variable {σ α : Type}

def outcome (attempt : Attempt σ α) : Call σ (Outcome α) := ExceptT.run attempt

/-- A call that cannot fail, as an attempt. -/
def ofCall (call : Call σ α) : Attempt σ α := ExceptT.lift call

/-- Counts failures of one kind as success without a value. -/
def tolerating (benign : Failure → Bool) (attempt : Attempt σ α) : Attempt σ (Option α) := ExceptT.mk do
  match ← attempt.outcome with
  | .ok value => return .ok (some value)
  | .error failure => return if benign failure then .ok none else .error failure

end Attempt

/-- A request handed over with a callback: the sender runs the callback on the outcome later, and the call that
posts it does not wait. -/
structure Posting (α : Type) where
  request : LockRequest
  deliver : Outcome Reply → α

namespace Posting

variable {σ τ α β : Type}

/-- The same request with a further step after the callback. -/
def map (f : α → β) (posting : Posting α) : Posting β :=
  ⟨posting.request, fun outcome => f (posting.deliver outcome)⟩

/-- Runs a call that posts, and then the callback on the answer. -/
def run (respond : Responder τ) (call : Call σ (Posting α)) (scene : Scene σ τ) : α × Scene σ τ :=
  let (posting, scene) := call.run respond scene
  let (outcome, peer) := respond scene.peer posting.request
  (posting.deliver outcome, { scene with peer })

end Posting

end LockService
