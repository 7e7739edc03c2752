import LockService.Primitive.TokenBucket
import LockService.Service.Basic

/-!
# Token buckets in use

Any number of clients take tokens from one bucket, through handles that agree on its key, permits, timeout and period,
and read one clock with the service. An attempt that finds no free slot waits at the service. A slot is held from its
grant on for as long as its expire word says; all slots that were ever granted stay on record.
-/

namespace LockService

/-- How long an expire word lets a holder keep a lock, in milliseconds. -/
def TimeWord.holdMillis (word : TimeWord) : Nat :=
  if word.has ExpireFlag.millis then word.value.toNat
  else if word.has ExpireFlag.minutes then word.value.toNat * 60000
  else word.value.toNat * 1000

/-- A slot that was granted. A first attempt is aligned: it aims at the end of the window in which it is made. -/
structure Slot where
  aligned : Bool
  asked : Nat
  granted : Nat
  ends : Nat
deriving DecidableEq

namespace TokenBucket

/-- An attempt that waits at the service. -/
structure Waiting where
  aligned : Bool
  asked : Nat
  request : LockRequest
  resume : Outcome Reply → Call Unit (Outcome LockReply)
  ids : IdSource

/-- The attempt has waited for as long as its timeout word says. -/
def Waiting.IsDue (a : Waiting) (now : Nat) : Prop :=
  a.request.timeout.waitSpan.nanos ≤ (now - a.asked) * 1000000

instance (a : Waiting) (now : Nat) : Decidable (a.IsDue now) :=
  inferInstanceAs (Decidable (a.request.timeout.waitSpan.nanos ≤ (now - a.asked) * 1000000))

/-- What can happen. -/
inductive Use where
  /-- A client takes a token. -/
  | acquire (ids : IdSource)
  /-- A millisecond passes. -/
  | tick
  /-- The service grants the `n`-th of the attempts that wait, if there is room. -/
  | grant (n : Nat)
  /-- The `n`-th of the attempts that wait ends without a slot. -/
  | refuse (n : Nat) (outcome : Outcome Reply)

/-- The service, the clock and the attempts under way. -/
structure Users where
  now : Nat
  waiting : List Waiting := []
  /-- The slots that were granted, in order. -/
  slots : List Slot := []
  /-- The outcomes of the acquires that are over, in order. -/
  finished : List (Outcome LockReply) := []

namespace Users

variable (h : TokenBucket) (p : Users)

/-- The slots that are held now. -/
def held : List Slot := p.slots.filter fun slot => p.now < slot.ends

/-- The service grants a request while at most as many slots are held as the request allows beside its own. -/
def HasRoom (request : LockRequest) : Prop := p.held.length ≤ request.count.toNat

instance (request : LockRequest) : Decidable (p.HasRoom request) :=
  inferInstanceAs (Decidable (p.held.length ≤ request.count.toNat))

/-- Lets a client go on until it waits or its acquire is over. -/
def proceed (aligned : Bool) (call : Call Unit (Outcome LockReply)) (ids : IdSource) : Users :=
  match call.advance () ids with
  | (.finished value, _, _) => { p with finished := p.finished ++ [value] }
  | (.waiting request resume, _, ids) =>
    { p with waiting := p.waiting ++ [⟨aligned, p.now, request, resume, ids⟩] }

/-- Lets something happen. Nothing does for an attempt that does not wait, or by a refusal that is none. -/
def step : Use → Users
  | .acquire ids => p.proceed true (h.acquire p.now).outcome ids
  | .tick => { p with now := p.now + 1 }
  | .grant n =>
    match p.waiting[n]? with
    | none => p
    | some a =>
      if p.HasRoom a.request then
        let slot := ⟨a.aligned, a.asked, p.now, p.now + a.request.expire.holdMillis⟩
        { p with waiting := p.waiting.eraseIdx n, slots := p.slots ++ [slot] }.proceed false
          (a.resume (a.request.answer ResultCode.success)) a.ids
      else p
  | .refuse n outcome =>
    match p.waiting[n]? with
    | none => p
    | some a =>
      if outcome.isGrant then p
      else { p with waiting := p.waiting.eraseIdx n }.proceed false (a.resume outcome) a.ids

/-- Lets things happen one after the other. -/
def run (p : Users) (uses : List Use) : Users := uses.foldl (step h) p

/-- The end of the window in which an instant lies. -/
def windowEnd (now : Nat) : Nat := (h.currentWindow now).boundary

/-- The slots of first attempts that were granted in the window with this end. -/
def alignedIn (stop : Nat) : List Slot :=
  p.slots.filter fun slot => slot.aligned && windowEnd h slot.granted = stop

@[simp] theorem run_nil : p.run h [] = p := rfl

theorem run_concat (uses : List Use) (use : Use) : p.run h (uses ++ [use]) = (p.run h uses).step h use := by
  simp only [run, List.foldl_append, List.foldl_cons, List.foldl_nil]

/-- A service answers as soon as it can and no sooner: time passes only while no attempt that waits has room or is due,
and an attempt that is due without room gets a timeout. -/
def IsPrompt (p : Users) : Use → Prop
  | .acquire _ | .grant _ => True
  | .tick => ∀ a ∈ p.waiting, ¬ p.HasRoom a.request ∧ ¬ a.IsDue p.now
  | .refuse n outcome => ∃ a ∈ p.waiting[n]?,
    ¬ p.HasRoom a.request ∧ a.IsDue p.now ∧ outcome.HasCode ResultCode.timeout

instance : DecidablePred p.IsPrompt
  | .acquire _ | .grant _ => inferInstanceAs (Decidable True)
  | .tick => inferInstanceAs (Decidable (∀ a ∈ p.waiting, ¬ p.HasRoom a.request ∧ ¬ a.IsDue p.now))
  | .refuse n outcome => inferInstanceAs (Decidable (∃ a ∈ p.waiting[n]?,
      ¬ p.HasRoom a.request ∧ a.IsDue p.now ∧ outcome.HasCode ResultCode.timeout))

end Users

end TokenBucket

end LockService
